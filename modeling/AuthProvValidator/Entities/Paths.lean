import AuthProvValidator.Base.Regex
import AuthProvValidator.Entities.Types
import AuthProvValidator.Ports.JsonConstants

/-!
# Resource paths

The URI patterns of `ValidationData.hpp` and the functions that classify a resource path and take it apart.
-/

namespace AuthProvValidator
open Regex Regex.Expr

def SUBSCRIBERS : Str := "/subscribers/"
def AUTH_SUBSCRIPTION : Str := "/authSubscription"
def AUTH_SUBSCRIPTION_CHILD : Str := "/authSubscription/"
def IMSI_CHILD : Str := "/authSubscription/imsi-"
def STATIC_DATA : Str := "/authSubscriptionStaticData"
def PROV_JOURNAL : Str := "/journal/provJournal"
def LEGACY : Str := "/legacy/serv=Auth/"
def IMSI : Str := "imsi-"

/-- `^/subscribers/(.*?)/authSubscription$` -/
def authSubscriptionUriRegex : Expr := cat [bol, lit SUBSCRIBERS, group 1 lazyAny, lit AUTH_SUBSCRIPTION, eol]

/-- `^/subscribers/(.*?)/authSubscription/[^/]*$` -/
def authSubscriptionPrivIdUriRegex : Expr :=
  cat [bol, lit SUBSCRIBERS, group 1 lazyAny, lit AUTH_SUBSCRIPTION_CHILD, star (· != '/'), eol]

/-- `^/subscribers/(.*?)/authSubscription/(.*?)/authSubscriptionStaticData$` -/
def authSubscriptionStaticDataUriRegex : Expr :=
  cat [bol, lit SUBSCRIBERS, group 1 lazyAny, lit AUTH_SUBSCRIPTION_CHILD, group 2 lazyAny, lit STATIC_DATA, eol]

/-- `^/subscribers/(.*?)/authSubscription/imsi-([0-9]{5,15})$|` and, as a second way,
`^/subscribers/(.*?)/authSubscription/imsi-([0-9]{5,15})/[^/]*$` -/
def imsiRegex : Expr :=
  alt
    (cat [bol, lit SUBSCRIBERS, group 1 lazyAny, lit IMSI_CHILD, group 2 (between 5 15 Str.isDecDigit), eol])
    (cat [bol, lit SUBSCRIBERS, group 3 lazyAny, lit IMSI_CHILD, group 4 (between 5 15 Str.isDecDigit), lit ['/'],
      star (· != '/'), eol])

def POS_IMSI : Nat := 4

def POS_MSCID : Nat := 1

def LEGACY_BASE_PATH : Str := "/legacy/serv=Auth/IMSI="

/-- `^/legacy/serv=Auth/[^/]*$` -/
def legacyRegex : Expr := cat [bol, lit LEGACY, star (· != '/'), eol]

/-- `regex_match` on `data.c_str()`. -/
def checkPatternOnData (pattern : Expr) (data : Str) : Bool := (pattern.fullMatch data.cStr).isSome

def checkAuthSubscriptionUri (resourcePath : Str) : Bool := checkPatternOnData authSubscriptionUriRegex resourcePath

def checkAuthSubscriptionStaticDataUri (resourcePath : Str) : Bool :=
  checkPatternOnData authSubscriptionStaticDataUriRegex resourcePath

def checkAuthSubscriptionPrivIdUri (resourcePath : Str) : Bool :=
  checkPatternOnData authSubscriptionPrivIdUriRegex resourcePath

def checkUriImsi (resourcePath : Str) : Bool := checkPatternOnData imsiRegex resourcePath

def checkAuthSubscriptionLegacyUri (resourcePath : Str) : Bool := checkPatternOnData legacyRegex resourcePath

/-- The subscriber of a static data path: `regex_search`, which reads past a NUL and matches line by line. -/
def getMscId (resourcePath : Str) : Str :=
  match authSubscriptionStaticDataUriRegex.search resourcePath with
  | some sm => sm.sub POS_MSCID
  | none => []

def buildProvJournalResourcePathFromMscId (mscId : Str) : Str := SUBSCRIBERS ++ mscId ++ PROV_JOURNAL

def getImsi (path : Str) : Str :=
  match imsiRegex.fullMatch path.cStr with
  | some patternMatch => patternMatch.sub POS_IMSI
  | none => []

def getLegacyPathFromResourcePath (path : Str) : Str := LEGACY_BASE_PATH ++ getImsi path

/-- The path up to its last `/`; all of it when there is none. -/
def getBasePath (path : Str) : Str :=
  if '/' ∈ path then (path.rdropWhile (· != '/')).dropLast else path

def addSuffixToPath (path suffix : Str) : Str := path ++ '/' :: suffix

def createPathFromBasePath (path suffix : Str) : Str :=
  let basePath := getBasePath path
  if suffix.isEmpty then basePath else addSuffixToPath basePath suffix

/-! ## The shapes of a path -/

structure IsImsi (d : Str) : Prop where
  digits : ∀ c ∈ d, Str.isDecDigit c = true
  min : 5 ≤ d.length
  max : d.length ≤ 15

instance (d : Str) : Decidable (IsImsi d) :=
  decidable_of_iff (d.all Str.isDecDigit = true ∧ 5 ≤ d.length ∧ d.length ≤ 15)
    ⟨fun h => ⟨List.all_eq_true.mp h.1, h.2.1, h.2.2⟩, fun h => ⟨List.all_eq_true.mpr h.digits, h.min, h.max⟩⟩

/-- `/subscribers/x/authSubscription` -/
def authSubscriptionPath (x : Str) : Str := SUBSCRIBERS ++ x ++ AUTH_SUBSCRIPTION

/-- `/subscribers/x/authSubscription/imsi-d` -/
def imsiPath (x d : Str) : Str := addSuffixToPath (authSubscriptionPath x) (IMSI ++ d)

/-- `/subscribers/x/authSubscription/imsi-d/authSubscriptionStaticData` -/
def staticDataPath (x d : Str) : Str := addSuffixToPath (imsiPath x d) JSON_AUTH_SUBSCRIPTION_STATIC_DATA

theorem AUTH_SUBSCRIPTION_eq : AUTH_SUBSCRIPTION = '/' :: JSON_AUTH_SUBSCRIPTION := by decide

theorem AUTH_SUBSCRIPTION_CHILD_eq : AUTH_SUBSCRIPTION_CHILD = AUTH_SUBSCRIPTION ++ ['/'] := by decide

theorem IMSI_CHILD_eq : IMSI_CHILD = AUTH_SUBSCRIPTION ++ '/' :: IMSI := by decide

theorem STATIC_DATA_eq : STATIC_DATA = '/' :: JSON_AUTH_SUBSCRIPTION_STATIC_DATA := by decide

theorem slash_not_mem_staticData : '/' ∉ JSON_AUTH_SUBSCRIPTION_STATIC_DATA := by decide

theorem slash_not_mem_authSubscription : '/' ∉ JSON_AUTH_SUBSCRIPTION := by decide

theorem slash_not_mem_imsi {d : Str} (hd : IsImsi d) : '/' ∉ IMSI ++ d := by
  rw [List.mem_append, not_or]
  exact ⟨by decide, fun h => absurd (hd.digits '/' h) (by decide)⟩

/-- No fixed segment of a path starts as an IMSI does. -/
theorem ne_imsi_append {s : Str} (hs : s.head? ≠ IMSI.head?) (d : Str) : s ≠ IMSI ++ d := by
  rintro rfl
  exact hs (by rw [List.head?_append]; rfl)

/-- The last segment of a path and what is before it are determined. -/
theorem addSuffixToPath_inj {a b s t : Str} (hs : '/' ∉ s) (ht : '/' ∉ t)
    (h : addSuffixToPath a s = addSuffixToPath b t) : a = b ∧ s = t := by
  have key : ∀ {l r : Str}, '/' ∉ r → (l ++ '/' :: r).rtakeWhile (· != '/') = r := by
    intro l r hr
    rw [List.rtakeWhile, List.reverse_append, List.reverse_cons, List.append_assoc,
      List.takeWhile_append_of_pos (by simpa using fun c hc => by rintro rfl; exact hr hc)]
    simp
  unfold addSuffixToPath at h
  have hst : s = t := by rw [← key (l := a) hs, h, key ht]
  subst hst
  exact ⟨List.append_cancel_right h, rfl⟩

theorem getBasePath_addSuffixToPath {a s : Str} (hs : '/' ∉ s) : getBasePath (addSuffixToPath a s) = a := by
  rw [getBasePath, addSuffixToPath, if_pos (by simp), List.rdropWhile, List.reverse_append, List.reverse_cons,
    List.append_assoc, List.dropWhile_append_of_pos (by simpa using fun c hc => by rintro rfl; exact hs hc)]
  simp

theorem addSuffixToPath_assoc (a s t : Str) :
    addSuffixToPath a (addSuffixToPath s t) = addSuffixToPath (addSuffixToPath a s) t := by
  simp [addSuffixToPath]

theorem authSubscriptionPath_eq (x : Str) :
    authSubscriptionPath x = addSuffixToPath (SUBSCRIBERS ++ x) JSON_AUTH_SUBSCRIPTION := by
  rw [authSubscriptionPath, AUTH_SUBSCRIPTION_eq, addSuffixToPath]

theorem authSubscriptionChild_eq (x y : Str) :
    SUBSCRIBERS ++ (x ++ (AUTH_SUBSCRIPTION_CHILD ++ y)) = addSuffixToPath (authSubscriptionPath x) y := by
  simp [authSubscriptionPath, AUTH_SUBSCRIPTION_CHILD_eq, addSuffixToPath]

theorem imsiChild_eq (x d : Str) : SUBSCRIBERS ++ (x ++ (IMSI_CHILD ++ d)) = imsiPath x d := by
  simp [imsiPath, authSubscriptionPath, IMSI_CHILD_eq, addSuffixToPath]

theorem staticDataPath_eq (x d : Str) :
    staticDataPath x d = SUBSCRIBERS ++ (x ++ (IMSI_CHILD ++ d) ++ '/' :: JSON_AUTH_SUBSCRIPTION_STATIC_DATA) := by
  rw [staticDataPath, ← imsiChild_eq, addSuffixToPath]
  simp only [List.append_assoc]

theorem authSubscriptionPath_inj {x y : Str} (h : authSubscriptionPath x = authSubscriptionPath y) : x = y :=
  List.append_cancel_left (List.append_cancel_right h)

theorem imsiPath_inj {x y d e : Str} (hd : IsImsi d) (he : IsImsi e) (h : imsiPath x d = imsiPath y e) :
    x = y ∧ d = e := by
  obtain ⟨hx, hde⟩ := addSuffixToPath_inj (slash_not_mem_imsi hd) (slash_not_mem_imsi he) h
  exact ⟨authSubscriptionPath_inj hx, List.append_cancel_left hde⟩

theorem imsiPath_ne_staticData {x d a : Str} (hd : IsImsi d) :
    imsiPath x d ≠ addSuffixToPath a JSON_AUTH_SUBSCRIPTION_STATIC_DATA := fun h => by
  obtain ⟨-, hseg⟩ := addSuffixToPath_inj (slash_not_mem_imsi hd) slash_not_mem_staticData h
  exact ne_imsi_append (by decide) d hseg.symm

theorem imsiPath_ne_authSubscriptionPath {x y d : Str} (hd : IsImsi d) : imsiPath x d ≠ authSubscriptionPath y := by
  intro h
  rw [authSubscriptionPath_eq] at h
  obtain ⟨-, hseg⟩ := addSuffixToPath_inj (slash_not_mem_imsi hd) slash_not_mem_authSubscription h
  exact ne_imsi_append (by decide) d hseg.symm

theorem staticDataPath_ne_authSubscriptionPath {x y d : Str} : staticDataPath x d ≠ authSubscriptionPath y := by
  intro h
  rw [authSubscriptionPath_eq] at h
  obtain ⟨-, hseg⟩ := addSuffixToPath_inj slash_not_mem_staticData slash_not_mem_authSubscription h
  exact absurd hseg (by decide)

/-! ## What the classifiers accept -/

section Accept
variable {p : Str}

theorem checkPatternOnData_iff {r : Expr} : checkPatternOnData r p = true ↔ Accepts r none p.cStr :=
  fullMatch_isSome

theorem forall_notSlash_iff {w : Str} : (∀ c ∈ w, (c != '/') = true) ↔ '/' ∉ w := by
  simp only [bne_iff_ne]
  exact List.forall_mem_ne'

theorem checkAuthSubscriptionUri_iff :
    checkAuthSubscriptionUri p = true ↔ ∃ x, p.cStr = authSubscriptionPath x := by
  simp only [checkAuthSubscriptionUri, checkPatternOnData_iff, authSubscriptionUriRegex, cat, accepts_seq_bol,
    accepts_seq_lit, accepts_seq_group, accepts_seq_lazyAny, accepts_eol, authSubscriptionPath, List.append_assoc]
  constructor
  · rintro ⟨_, h, x, _, rfl, _, rfl, rfl⟩
    exact ⟨x, by rw [h, List.append_nil]⟩
  · rintro ⟨x, h⟩
    exact ⟨x ++ AUTH_SUBSCRIPTION, h, x, AUTH_SUBSCRIPTION, rfl, [], (List.append_nil _).symm, rfl⟩

theorem checkAuthSubscriptionStaticDataUri_iff :
    checkAuthSubscriptionStaticDataUri p = true ↔
      ∃ x y, p.cStr = addSuffixToPath (authSubscriptionPath x) (y ++ STATIC_DATA) := by
  simp only [checkAuthSubscriptionStaticDataUri, checkPatternOnData_iff, authSubscriptionStaticDataUriRegex, cat,
    accepts_seq_bol, accepts_seq_lit, accepts_seq_group, accepts_seq_lazyAny, accepts_eol, ← authSubscriptionChild_eq]
  constructor
  · rintro ⟨_, h, x, _, rfl, _, rfl, y, _, rfl, _, rfl, rfl⟩
    exact ⟨x, y, by rw [h, List.append_nil]⟩
  · rintro ⟨x, y, h⟩
    exact ⟨x ++ (AUTH_SUBSCRIPTION_CHILD ++ (y ++ STATIC_DATA)), h, x, AUTH_SUBSCRIPTION_CHILD ++ (y ++ STATIC_DATA),
      rfl, y ++ STATIC_DATA, rfl, y, STATIC_DATA, rfl, [], (List.append_nil _).symm, rfl⟩

theorem checkAuthSubscriptionPrivIdUri_iff :
    checkAuthSubscriptionPrivIdUri p = true ↔ ∃ x y, '/' ∉ y ∧ p.cStr = addSuffixToPath (authSubscriptionPath x) y := by
  simp only [checkAuthSubscriptionPrivIdUri, checkPatternOnData_iff, authSubscriptionPrivIdUriRegex, cat,
    accepts_seq_bol, accepts_seq_lit, accepts_seq_group, accepts_seq_lazyAny, accepts_seq_star, accepts_eol,
    forall_notSlash_iff, ← authSubscriptionChild_eq]
  constructor
  · rintro ⟨_, h, x, _, rfl, _, rfl, y, _, rfl, hy, rfl⟩
    exact ⟨x, y, hy, by rw [h, List.append_nil]⟩
  · rintro ⟨x, y, hy, h⟩
    exact ⟨x ++ (AUTH_SUBSCRIPTION_CHILD ++ y), h, x, AUTH_SUBSCRIPTION_CHILD ++ y, rfl, y, rfl, y, [],
      (List.append_nil _).symm, hy, rfl⟩

theorem checkAuthSubscriptionLegacyUri_iff :
    checkAuthSubscriptionLegacyUri p = true ↔ ∃ y, '/' ∉ y ∧ p.cStr = LEGACY ++ y := by
  simp only [checkAuthSubscriptionLegacyUri, checkPatternOnData_iff, legacyRegex, cat, accepts_seq_bol,
    accepts_seq_lit, accepts_seq_star, accepts_eol, forall_notSlash_iff]
  constructor
  · rintro ⟨_, h, y, _, rfl, hy, rfl⟩
    exact ⟨y, hy, by rw [h, List.append_nil]⟩
  · rintro ⟨y, hy, h⟩
    exact ⟨y, h, y, [], (List.append_nil _).symm, hy, rfl⟩

/-- What group 4 of the IMSI pattern reads: nothing when the IMSI is in the last segment, else the IMSI. -/
theorem imsiRegex_hit {s : Str} {sm : Hit} (h : sm ∈ imsiRegex.hits none s) (hrest : sm.rest = []) :
    (∃ x d, IsImsi d ∧ s = imsiPath x d ∧ sm.sub POS_IMSI = []) ∨
      ∃ x d t, IsImsi d ∧ '/' ∉ t ∧ s = addSuffixToPath (imsiPath x d) t ∧ sm.sub POS_IMSI = d := by
  simp only [imsiRegex, cat, lazyAny, Expr.star, between, mem_hits_alt, mem_hits_seq_bol, mem_hits_seq_lit,
    mem_hits_seq_group_many, mem_hits_seq_many, mem_hits_eol, Option.mem_some_iff, forall_eq'] at h
  rcases h with ⟨_, rfl, _, ⟨x, _, rfl, -, _, ⟨_, rfl, _, ⟨d, u, rfl, ⟨hd, hlo, hhi⟩, _, ⟨-, rfl⟩, rfl⟩, rfl⟩,
      rfl⟩, rfl⟩ |
    ⟨_, rfl, _, ⟨x, _, rfl, -, _, ⟨_, rfl, _, ⟨d, _, rfl, ⟨hd, hlo, hhi⟩, _, ⟨_, rfl, _, ⟨t, u, rfl, ⟨ht, -⟩,
      _, ⟨-, rfl⟩, rfl⟩, rfl⟩, rfl⟩, rfl⟩, rfl⟩, rfl⟩
  · obtain rfl : u = [] := hrest
    rw [List.append_nil, imsiChild_eq]
    exact Or.inl ⟨x, d, ⟨hd, hlo, hhi⟩, rfl, rfl⟩
  · obtain rfl : u = [] := hrest
    refine Or.inr ⟨x, d, t, ⟨hd, hlo, hhi⟩, forall_notSlash_iff.mp ht, ?_, rfl⟩
    rw [List.append_nil, addSuffixToPath, ← imsiChild_eq]
    simp only [List.append_assoc, List.singleton_append]

theorem checkUriImsi_iff :
    checkUriImsi p = true ↔
      ∃ x d, IsImsi d ∧ (p.cStr = imsiPath x d ∨ ∃ t, '/' ∉ t ∧ p.cStr = addSuffixToPath (imsiPath x d) t) := by
  constructor
  · intro h
    obtain ⟨sm, hm⟩ := Option.isSome_iff_exists.mp h
    obtain ⟨hhit, hrest⟩ := mem_of_fullMatch hm
    rcases imsiRegex_hit hhit hrest with ⟨x, d, hd, hp, -⟩ | ⟨x, d, t, hd, ht, hp, -⟩
    · exact ⟨x, d, hd, Or.inl hp⟩
    · exact ⟨x, d, hd, Or.inr ⟨t, ht, hp⟩⟩
  · simp only [checkUriImsi, checkPatternOnData_iff, imsiRegex, cat, accepts_alt, accepts_seq_bol, accepts_seq_lit,
      accepts_seq_group, accepts_seq_lazyAny, accepts_seq_star, accepts_seq_between, accepts_eol, forall_notSlash_iff]
    rintro ⟨x, d, hd, h | ⟨t, ht, h⟩⟩
    · rw [← imsiChild_eq] at h
      exact Or.inl ⟨x ++ (IMSI_CHILD ++ d), h, x, IMSI_CHILD ++ d, rfl, d, rfl, d, [], (List.append_nil _).symm,
        ⟨hd.digits, hd.min, hd.max⟩, rfl⟩
    · rw [addSuffixToPath, ← imsiChild_eq] at h
      exact Or.inr ⟨x ++ (IMSI_CHILD ++ (d ++ '/' :: t)), by rw [h]; simp only [List.append_assoc], x,
        IMSI_CHILD ++ (d ++ '/' :: t), rfl, d ++ '/' :: t, rfl, d, '/' :: t, rfl, ⟨hd.digits, hd.min, hd.max⟩,
        t, rfl, t, [], (List.append_nil _).symm, ht, rfl⟩

theorem staticData_imsi_iff :
    checkAuthSubscriptionStaticDataUri p = true ∧ checkUriImsi p = true ↔
      ∃ x d, IsImsi d ∧ p.cStr = staticDataPath x d := by
  rw [checkAuthSubscriptionStaticDataUri_iff, checkUriImsi_iff]
  constructor
  · rintro ⟨⟨x', y, hs⟩, x, d, hd, hi⟩
    rw [STATIC_DATA_eq, ← addSuffixToPath, addSuffixToPath_assoc] at hs
    rcases hi with hi | ⟨t, ht, hi⟩
    · exact absurd (hi.symm.trans hs) (imsiPath_ne_staticData hd)
    · obtain ⟨hpath, -⟩ := addSuffixToPath_inj slash_not_mem_staticData ht (hs.symm.trans hi)
      exact ⟨x, d, hd, by rw [hs, hpath, staticDataPath]⟩
  · rintro ⟨x, d, hd, h⟩
    refine ⟨⟨x, IMSI ++ d, ?_⟩, x, d, hd, Or.inr ⟨_, slash_not_mem_staticData, h⟩⟩
    rw [h, staticDataPath, imsiPath, STATIC_DATA_eq, ← addSuffixToPath, addSuffixToPath_assoc]

theorem privId_imsi_iff :
    checkAuthSubscriptionPrivIdUri p = true ∧ checkUriImsi p = true ↔ ∃ x d, IsImsi d ∧ p.cStr = imsiPath x d := by
  rw [checkAuthSubscriptionPrivIdUri_iff, checkUriImsi_iff]
  constructor
  · rintro ⟨⟨x', y, hy, hp⟩, x, d, hd, hi | ⟨t, ht, hi⟩⟩
    · exact ⟨x, d, hd, hi⟩
    · obtain ⟨hpath, -⟩ := addSuffixToPath_inj hy ht (hp.symm.trans hi)
      exact absurd hpath.symm (imsiPath_ne_authSubscriptionPath hd)
  · rintro ⟨x, d, hd, h⟩
    exact ⟨⟨x, IMSI ++ d, slash_not_mem_imsi hd, h⟩, x, d, hd, Or.inl h⟩

/-! ## The parts taken out of a path -/

theorem getImsi_of_child {d x t : Str} (hd : IsImsi d) (ht : '/' ∉ t) (h : p.cStr = addSuffixToPath (imsiPath x d) t) :
    getImsi p = d := by
  have hacc := checkUriImsi_iff.mpr ⟨x, d, hd, Or.inr ⟨t, ht, h⟩⟩
  obtain ⟨sm, hm⟩ := Option.isSome_iff_exists.mp hacc
  obtain ⟨hhit, hrest⟩ := mem_of_fullMatch hm
  rw [getImsi, hm]
  rcases imsiRegex_hit hhit hrest with ⟨y, e, he, hp, -⟩ | ⟨y, e, s, he, hs, hp, hsub⟩
  · obtain ⟨hpath, -⟩ := addSuffixToPath_inj (slash_not_mem_imsi he) ht (hp.symm.trans h)
    exact absurd hpath.symm (imsiPath_ne_authSubscriptionPath hd)
  · obtain ⟨hpath, -⟩ := addSuffixToPath_inj hs ht (hp.symm.trans h)
    exact hsub.trans (imsiPath_inj he hd hpath).2

theorem getImsi_of_cStr_eq {d : Str} {x : Str} (hd : IsImsi d) (h : p.cStr = staticDataPath x d) : getImsi p = d :=
  getImsi_of_child hd slash_not_mem_staticData h

/-- Nothing is read from the path of the private identity itself: the group that is read belongs to the other way. -/
theorem getImsi_of_imsiPath {d x : Str} (hd : IsImsi d) (h : p.cStr = imsiPath x d) : getImsi p = [] := by
  have hacc := checkUriImsi_iff.mpr ⟨x, d, hd, Or.inl h⟩
  obtain ⟨sm, hm⟩ := Option.isSome_iff_exists.mp hacc
  obtain ⟨hhit, hrest⟩ := mem_of_fullMatch hm
  rw [getImsi, hm]
  rcases imsiRegex_hit hhit hrest with ⟨y, e, he, -, hsub⟩ | ⟨y, e, t, he, ht, hp, -⟩
  · exact hsub
  · obtain ⟨hpath, -⟩ := addSuffixToPath_inj ht (slash_not_mem_imsi hd) (hp.symm.trans h)
    exact absurd hpath (imsiPath_ne_authSubscriptionPath he)

theorem getLegacyPath_of_cStr_eq {d : Str} {x : Str} (hd : IsImsi d) (h : p.cStr = staticDataPath x d) :
    getLegacyPathFromResourcePath p = LEGACY_BASE_PATH ++ d := by
  rw [getLegacyPathFromResourcePath, getImsi_of_cStr_eq hd h]

theorem getImsi_digits (p : Str) : ∀ c ∈ getImsi p, Str.isDecDigit c = true := by
  unfold getImsi
  cases hm : imsiRegex.fullMatch p.cStr with
  | none => simp
  | some sm =>
    obtain ⟨hhit, hrest⟩ := mem_of_fullMatch hm
    rcases imsiRegex_hit hhit hrest with ⟨x, d, hd, -, hsub⟩ | ⟨x, d, t, hd, -, -, hsub⟩
    · simp [hsub]
    · simpa [hsub] using hd.digits

def afterMscId : Expr := cat [lit AUTH_SUBSCRIPTION_CHILD, group 2 lazyAny, lit STATIC_DATA, eol]

/-- Where the end of the pattern can be read, it can also be read from an earlier `/authSubscription/`. -/
theorem afterMscId_hits_ne_nil {q q' : Option Char} {b u : Str}
    (h : afterMscId.hits q (AUTH_SUBSCRIPTION_CHILD ++ u) ≠ []) :
    afterMscId.hits q' (AUTH_SUBSCRIPTION_CHILD ++ (b ++ u)) ≠ [] := by
  obtain ⟨sm, hsm⟩ := List.exists_mem_of_ne_nil _ h
  simp only [afterMscId, cat, lazyAny, mem_hits_seq_lit, mem_hits_seq_group_many, mem_hits_eol] at hsm
  obtain ⟨_, heq, _, ⟨y, _, rfl, -, _, ⟨z, rfl, _, ⟨hend, rfl⟩, rfl⟩, rfl⟩, -⟩ := hsm
  obtain rfl := List.append_cancel_left heq
  have hsep : ∀ r : Option Char, before r STATIC_DATA = STATIC_DATA.getLast? := fun r => by
    rw [before, STATIC_DATA_eq, List.getLast?_cons, Option.some_or]
  rw [hsep] at hend
  refine List.ne_nil_of_mem (a := ⟨AUTH_SUBSCRIPTION_CHILD ++ (b ++ y ++ (STATIC_DATA ++ [])), [(2, b ++ y)], z⟩) ?_
  simp only [afterMscId, cat, lazyAny, mem_hits_seq_lit, mem_hits_seq_group_many, mem_hits_eol]
  refine ⟨_, rfl, _, ⟨b ++ y, STATIC_DATA ++ z, by rw [List.append_assoc], ⟨by simp, by simp, by simp⟩, _,
    ⟨z, rfl, _, ⟨?_, rfl⟩, rfl⟩, rfl⟩, rfl⟩
  rw [hsep]
  exact hend

/-- The subscriber is read up to the first `/authSubscription/` that the pattern can use: no other one starts in it. -/
theorem getMscId_shortest {a b : Str}
    (hsplit : getMscId p ++ AUTH_SUBSCRIPTION_CHILD = a ++ AUTH_SUBSCRIPTION_CHILD ++ b) : b = [] := by
  by_contra hb
  have hlen := congrArg List.length hsplit
  simp only [List.length_append] at hlen
  have hpos := List.length_pos_iff.mpr hb
  unfold getMscId at hsplit hlen
  cases hsearch : authSubscriptionStaticDataUriRegex.search p with
  | none =>
    rw [hsearch] at hlen
    simp only [List.length_nil] at hlen
    omega
  | some sm =>
    obtain ⟨q, s, -, hfirst⟩ := exists_of_searchFrom hsearch
    obtain ⟨t, c, -, hgroup, rfl⟩ := head?_hits_seq_lit (head?_hits_seq_bol hfirst)
    obtain ⟨w, u, e, rfl, hafter, rfl, hshort⟩ := head?_hits_lazyGroup hgroup
    rw [hsearch] at hsplit hlen
    change w ++ AUTH_SUBSCRIPTION_CHILD = _ at hsplit
    change w.length + _ = _ at hlen
    -- the hit after `w` starts with the marker; so an earlier marker could have been used instead
    obtain ⟨u', rfl⟩ : ∃ u', u = AUTH_SUBSCRIPTION_CHILD ++ u' := by
      obtain ⟨u', -, hu, -⟩ := head?_hits_seq_lit hafter
      exact ⟨u', hu⟩
    have hne : afterMscId.hits (before (before q SUBSCRIBERS) w) (AUTH_SUBSCRIPTION_CHILD ++ u') ≠ [] :=
      List.ne_nil_of_mem (List.mem_of_mem_head? hafter)
    refine afterMscId_hits_ne_nil hne (hshort a (AUTH_SUBSCRIPTION_CHILD ++ (b ++ u')) ?_ (by omega))
    rw [← List.append_assoc, hsplit]
    simp only [List.append_assoc]

theorem accepts_afterMscId (q : Option Char) (y : Str) :
    Accepts afterMscId q (AUTH_SUBSCRIPTION_CHILD ++ (y ++ STATIC_DATA)) := by
  simp only [afterMscId, cat, accepts_seq_lit, accepts_seq_group, accepts_seq_lazyAny, accepts_eol]
  exact ⟨_, rfl, y, STATIC_DATA, rfl, [], (List.append_nil _).symm, rfl⟩

/-- The subscriber that is read ends at a `/authSubscription/`, and no later than any one that the end of a static data
path follows. -/
theorem getMscId_split {a y : Str} (hp : p = SUBSCRIBERS ++ (a ++ (AUTH_SUBSCRIPTION_CHILD ++ (y ++ STATIC_DATA)))) :
    ∃ u, p = SUBSCRIBERS ++ (getMscId p ++ (AUTH_SUBSCRIPTION_CHILD ++ u)) ∧ (getMscId p).length ≤ a.length := by
  have hafter : ∀ q, afterMscId.hits q (AUTH_SUBSCRIPTION_CHILD ++ (y ++ STATIC_DATA)) ≠ [] := fun q => by
    obtain ⟨sm, hsm, -⟩ := accepts_afterMscId q y
    exact List.ne_nil_of_mem hsm
  have hhits : authSubscriptionStaticDataUriRegex.hits none p ≠ [] := by
    have hacc : Accepts authSubscriptionStaticDataUriRegex none p := by
      rw [hp, authSubscriptionStaticDataUriRegex, cat, cat, cat, accepts_seq_bol, accepts_seq_lit]
      refine ⟨_, rfl, ?_⟩
      rw [accepts_seq_group, accepts_seq_lazyAny]
      exact ⟨a, _, rfl, accepts_afterMscId _ _⟩
    obtain ⟨sm, hsm, -⟩ := hacc
    exact List.ne_nil_of_mem hsm
  obtain ⟨sm, hsm⟩ := Option.isSome_iff_exists.mp (List.isSome_head?.mpr hhits)
  obtain ⟨t, c, ht, hgroup, rfl⟩ := head?_hits_seq_lit (head?_hits_seq_bol hsm)
  obtain ⟨w, u, e, rfl, hend, rfl, hshort⟩ := head?_hits_lazyGroup hgroup
  have hmscId : getMscId p = w := by
    rw [getMscId, search_of_hits_ne_nil hhits, hsm]
    rfl
  obtain ⟨u', -, rfl, -⟩ := head?_hits_seq_lit hend
  rw [hmscId]
  refine ⟨u', ht, ?_⟩
  have hsplit := List.append_cancel_left (hp.symm.trans ht)
  by_contra hlt
  exact hafter _ (hshort a _ hsplit.symm (by omega))

theorem staticDataPath_child (x d : Str) :
    staticDataPath x d = SUBSCRIBERS ++ (x ++ (AUTH_SUBSCRIPTION_CHILD ++ (IMSI ++ d ++ STATIC_DATA))) := by
  rw [staticDataPath, imsiPath, addSuffixToPath, ← STATIC_DATA_eq, authSubscriptionChild_eq, addSuffixToPath,
    addSuffixToPath, List.append_assoc, List.cons_append]

theorem length_getMscId_le {x d a b : Str} (hab : a ++ AUTH_SUBSCRIPTION_CHILD ++ b = x ++ AUTH_SUBSCRIPTION) :
    (getMscId (staticDataPath x d)).length ≤ a.length := by
  have hp : staticDataPath x d =
      SUBSCRIBERS ++ (a ++ (AUTH_SUBSCRIPTION_CHILD ++ (b ++ ['/'] ++ (IMSI ++ d) ++ STATIC_DATA))) := by
    have hx : x ++ (AUTH_SUBSCRIPTION ++ (['/'] ++ (IMSI ++ d ++ STATIC_DATA))) =
        a ++ AUTH_SUBSCRIPTION_CHILD ++ b ++ (['/'] ++ (IMSI ++ d ++ STATIC_DATA)) := by
      rw [hab, ← List.append_assoc]
    rw [staticDataPath_child, AUTH_SUBSCRIPTION_CHILD_eq, List.append_assoc AUTH_SUBSCRIPTION, hx,
      AUTH_SUBSCRIPTION_CHILD_eq]
    simp only [List.append_assoc]
  obtain ⟨-, -, hle⟩ := getMscId_split hp
  exact hle

/-- A `/authSubscription/` that starts before another one ends before the last letter of the other. -/
theorem child_starts_before {c : Char} {v u r : Str}
    (h : c :: v ++ (AUTH_SUBSCRIPTION_CHILD ++ r) = AUTH_SUBSCRIPTION_CHILD ++ u) :
    AUTH_SUBSCRIPTION_CHILD <+: c :: v ++ AUTH_SUBSCRIPTION := by
  have hlen : AUTH_SUBSCRIPTION_CHILD.length ≤ (c :: v ++ AUTH_SUBSCRIPTION).length := by
    have hchild : AUTH_SUBSCRIPTION_CHILD.length = AUTH_SUBSCRIPTION.length + 1 := by decide
    rw [List.length_append, List.length_cons]
    omega
  have hfront : c :: v ++ AUTH_SUBSCRIPTION <+: c :: v ++ (AUTH_SUBSCRIPTION_CHILD ++ r) := by
    rw [AUTH_SUBSCRIPTION_CHILD_eq, List.append_assoc, List.prefix_append_right_inj]
    exact List.prefix_append _ _
  exact List.prefix_of_prefix_length_le ⟨u, h.symm⟩ hfront hlen

/-- The subscriber of a static data path is read exactly when no `/authSubscription/` starts before its end. -/
theorem getMscId_staticDataPath_iff {x d : Str} :
    getMscId (staticDataPath x d) = x ↔ ¬ AUTH_SUBSCRIPTION_CHILD <:+: x ++ AUTH_SUBSCRIPTION := by
  constructor
  · intro hread hpart
    obtain ⟨a, b, hab⟩ := hpart
    have hlen := congrArg List.length hab
    have hchild : AUTH_SUBSCRIPTION_CHILD.length = AUTH_SUBSCRIPTION.length + 1 := by decide
    have hle := @length_getMscId_le x d a b hab
    rw [hread] at hle
    simp only [List.length_append] at hlen
    omega
  · intro hnone
    obtain ⟨u, hu, hle⟩ := getMscId_split (staticDataPath_child x d)
    have hsplit := List.append_cancel_left ((staticDataPath_child x d).symm.trans hu)
    generalize getMscId (staticDataPath x d) = m at *
    obtain ⟨v, hv, -⟩ | ⟨v, hv, hrest⟩ := List.append_eq_append_iff.mp hsplit
    · rw [hv, List.length_append] at hle
      obtain rfl := List.length_eq_zero_iff.mp (by omega : v.length = 0)
      rw [hv, List.append_nil]
    · cases v with
      | nil => rw [hv, List.append_nil]
      | cons c v =>
        -- the marker after what is read starts in the subscriber
        apply absurd _ hnone
        rw [hv, List.append_assoc]
        exact (child_starts_before hrest.symm).isInfix.trans (List.suffix_append _ _).isInfix

/-- A subscriber without a slash is read from a static data path as it is. -/
theorem getMscId_staticDataPath {x d : Str} (hx : '/' ∉ x) : getMscId (staticDataPath x d) = x := by
  apply getMscId_staticDataPath_iff.mpr
  intro hpart
  have hcount := hpart.sublist.count_le '/'
  rw [List.count_append, List.count_eq_zero_of_not_mem hx] at hcount
  exact absurd hcount (by decide)

end Accept

/-! ## Paths that are never one -/

section Keys
variable {p : Str}

/-- No path of a subscription, of a static data resource or of a legacy subscription ends as a journal does. -/
theorem endsWith_provJournal_getLast (h : Str.endsWith p JSON_PROV_JOURNAL = true) : p.getLast? = some 'l' := by
  obtain ⟨a, rfl⟩ := List.isSuffixOf_iff_suffix.mp h
  rw [List.getLast?_append_of_ne_nil _ (by decide)]
  decide

theorem getLast_ne_of_isDecDigit {a d : Str} (hd : ∀ c ∈ d, Str.isDecDigit c = true)
    (ha : a.getLast? ≠ some 'l') : (a ++ d).getLast? ≠ some 'l' := by
  rw [List.getLast?_append]
  cases hlast : d.getLast? with
  | none => simpa using ha
  | some c =>
    rw [Option.some_or]
    intro hc
    obtain rfl := Option.some.inj hc
    exact absurd (hd 'l' (List.mem_of_getLast? hlast)) (by decide)

theorem not_endsWith_legacyPath : ¬ Str.endsWith (getLegacyPathFromResourcePath p) JSON_PROV_JOURNAL = true := fun h =>
  getLast_ne_of_isDecDigit (getImsi_digits p) (by decide) (endsWith_provJournal_getLast h)

theorem not_endsWith_imsiPath {x d : Str} (hd : IsImsi d) : ¬ Str.endsWith (imsiPath x d) JSON_PROV_JOURNAL = true := by
  intro h
  have hlast := endsWith_provJournal_getLast h
  rw [← imsiChild_eq, ← List.append_assoc, ← List.append_assoc] at hlast
  refine getLast_ne_of_isDecDigit hd.digits ?_ hlast
  rw [List.getLast?_append_of_ne_nil _ (by decide)]
  decide

theorem not_endsWith_authSubscriptionPath {x : Str} :
    ¬ Str.endsWith (authSubscriptionPath x) JSON_PROV_JOURNAL = true := by
  intro h
  have hlast := endsWith_provJournal_getLast h
  rw [authSubscriptionPath, List.getLast?_append_of_ne_nil _ (by decide)] at hlast
  exact absurd hlast (by decide)

theorem not_endsWith_staticDataPath {x d : Str} :
    ¬ Str.endsWith (staticDataPath x d) JSON_PROV_JOURNAL = true := by
  intro h
  have hlast := endsWith_provJournal_getLast h
  rw [staticDataPath, addSuffixToPath, List.getLast?_append_of_ne_nil _ (by decide)] at hlast
  exact absurd hlast (by decide)

theorem subscribers_ne_legacy {a b : Str} : SUBSCRIBERS ++ a ≠ LEGACY ++ b := by
  intro h
  have hsecond : (SUBSCRIBERS ++ a)[1]? = (LEGACY ++ b)[1]? := by rw [h]
  rw [List.getElem?_append_left (by decide), List.getElem?_append_left (by decide)] at hsecond
  exact absurd hsecond (by decide)

/-- The journal of the subscriber of a path is not stored under a child of an `authSubscription` resource: else the
subscriber would have been read up to an earlier `/authSubscription/`. -/
theorem provJournalPath_ne_child {x child : Str} :
    buildProvJournalResourcePathFromMscId (getMscId p) ≠ addSuffixToPath (authSubscriptionPath x) child := by
  intro h
  rw [buildProvJournalResourcePathFromMscId, ← authSubscriptionChild_eq, List.append_assoc] at h
  have hshort : ∀ {b : Str}, getMscId p ++ AUTH_SUBSCRIPTION_CHILD = x ++ AUTH_SUBSCRIPTION_CHILD ++ b → b = [] :=
    getMscId_shortest
  rcases List.append_eq_append_iff.mp (List.append_cancel_left h) with ⟨r, rfl, hr⟩ | ⟨r, hw, hr⟩
  · -- the subscriber ends before the key's: `/authSubscription/` would be part of `/journal/provJournal`
    have hpart : AUTH_SUBSCRIPTION_CHILD <:+: PROV_JOURNAL := ⟨r, child, by rw [hr, List.append_assoc]⟩
    exact absurd hpart (by decide)
  · rcases List.append_eq_append_iff.mp hr with ⟨b, hb, -⟩ | ⟨s, hs, hchild⟩
    · -- the key's `/authSubscription/` lies within the subscriber
      have := hshort (b := b ++ AUTH_SUBSCRIPTION_CHILD) (by rw [hw, hb]; simp only [List.append_assoc])
      exact absurd (List.append_eq_nil_iff.mp this).2 (by decide)
    · -- it ends where the journal's path starts
      have htails : ∀ t ∈ AUTH_SUBSCRIPTION_CHILD.tails, t <+: PROV_JOURNAL → t = [] ∨ t = ['/'] := by decide
      have hmem : s ∈ AUTH_SUBSCRIPTION_CHILD.tails := (List.mem_tails _ _).mpr ⟨r, hs.symm⟩
      rcases htails s hmem ⟨child, hchild.symm⟩ with rfl | rfl
      · rw [List.append_nil] at hs
        have := hshort (b := AUTH_SUBSCRIPTION_CHILD) (by rw [hw, ← hs])
        exact absurd this (by decide)
      · have hr' : r = AUTH_SUBSCRIPTION := List.append_cancel_right (hs.symm.trans AUTH_SUBSCRIPTION_CHILD_eq)
        have := hshort (b := JSON_AUTH_SUBSCRIPTION ++ ['/']) (by
          rw [hw, hr', AUTH_SUBSCRIPTION_CHILD_eq, AUTH_SUBSCRIPTION_eq]
          simp only [List.append_assoc, List.cons_append, List.nil_append])
        exact absurd (List.append_eq_nil_iff.mp this).2 (by decide)

end Keys

end AuthProvValidator
