import AuthProvValidator.Properties.CreationRule

/-!
# The bits of a mask

`checkBitIsSet` reads a character of the mask from its end, and only an empty mask is kept from it.

* `BitIsSet mask n` : the mask has the bit;
* `checkBitIsSet_decides_iff` : the test decides so exactly within the mask, and the rule for `akaAlgorithmInd` returns
  exactly where the mask of the journal is empty or longer than four characters.
-/

namespace AuthProvValidator
open Recorder

/-- The character of the mask at position `n` from the right is a one. -/
def BitIsSet (mask : Str) (n : Nat) : Prop := n < mask.length ∧ mask[mask.length - 1 - n]? = some '1'

/-- The test reads within the mask, and says whether the bit is set. -/
def DecidesBit (mask : Str) (n : Nat) : Prop := ∃ b, checkBitIsSet mask n = .ok b ∧ (b = true ↔ BitIsSet mask n)

/-- The rule for `akaAlgorithmInd` returns, and it only lets a change pass the `AuC` condition when the mask has the
bit. -/
structure DecidesAuC (R : RelatedResources) (p mask : Str) : Prop where
  total : ∀ value E, ∃ code E', (checkAkaAlgorithmInd R p (some value)).run E = .ok (code, E')
  passes : ∀ E code, (checkDefinedInAuC R p).run E = .ok (code, E) → BitIsSet mask 4

section Mask
variable {R : RelatedResources} {mask p value : Str} {n : Nat} {journal : ProvJournal}

theorem bitIsSet_iff : BitIsSet mask n ↔ mask.reverse[n]? = some '1' := by
  constructor
  · intro h
    rw [List.getElem?_reverse h.1]
    exact h.2
  · intro h
    have hlt : n < mask.length := by
      rw [← List.length_reverse]
      exact (List.getElem?_eq_some_iff.mp h).1
    rw [List.getElem?_reverse hlt] at h
    exact ⟨hlt, h⟩

theorem decidesBit_iff : DecidesBit mask n ↔ n < mask.length := by
  constructor
  · intro h
    obtain ⟨b, hb, -⟩ := h
    exact checkBitIsSet_ok_iff.mp ⟨b, hb⟩
  · intro h
    rw [← List.length_reverse] at h
    rw [DecidesBit, bitIsSet_iff, checkBitIsSet, List.getElem?_eq_getElem h]
    refine ⟨_, rfl, ?_⟩
    rw [beq_iff_eq, Option.some.injEq]

/-- What lets a change pass leaves the log as it is. -/
theorem bitIsSet_of_passes (hj : R[buildProvJournalResourcePathFromMscId (getMscId p)]? = some (.provJournal journal))
    {E : List Error} {code : Nat} (h : (checkDefinedInAuC R p).run E = .ok (code, E)) :
    BitIsSet journal.imsiMask 4 := by
  obtain ⟨es, hes, hlog⟩ := oblivious_checkDefinedInAuC.run_ok.mp h
  obtain rfl : es = [] := List.self_eq_append_right.mp hlog
  obtain ⟨-, journal', hj', hdefined⟩ := silent_checkDefinedInAuC.mp hes
  obtain rfl := Resource.provJournal.inj (Option.some.inj (hj.symm.trans hj'))
  exact bitIsSet_iff.mpr (isDefinedInAuC_iff.mp hdefined)

theorem decidesAuC_iff (hj : R[buildProvJournalResourcePathFromMscId (getMscId p)]? = some (.provJournal journal)) :
    DecidesAuC R p journal.imsiMask ↔ journal.imsiMask = [] ∨ 4 < journal.imsiMask.length := by
  rw [← returns_checkDefinedInAuC_iff hj]
  have hpattern : ∀ value, Returns (checkAkaAlgorithmIndPattern p (some value)) := fun value =>
    Returns.ite (fun _ => returns_record _) fun _ => returns_pure ()
  constructor
  · intro h
    obtain ⟨code, E', hrun⟩ := h.total [] []
    obtain ⟨-, E, -, hjournal⟩ := run_bind_ok.mp hrun
    exact returns_of_run oblivious_checkDefinedInAuC hjournal
  · intro h
    refine ⟨fun value E => ?_, fun E code => bitIsSet_of_passes hj⟩
    exact (hpattern value).bind (fun _ => h) E

end Mask

/-- **The bits of a mask are decided exactly within the mask, and the rule for `akaAlgorithmInd` exactly where the
mask of the journal is empty or longer than four characters.** -/
theorem checkBitIsSet_decides_iff (mask : Str) :
    (∀ n, DecidesBit mask n ↔ n < mask.length) ∧
      ∀ (R : RelatedResources) (p : Str) (journal : ProvJournal),
        R[buildProvJournalResourcePathFromMscId (getMscId p)]? = some (.provJournal journal) → journal.imsiMask = mask →
        (DecidesAuC R p mask ↔ mask = [] ∨ 4 < mask.length) := by
  refine ⟨fun n => decidesBit_iff, fun R p journal hj hmask => ?_⟩
  rw [← hmask]
  exact decidesAuC_iff hj

def journalWithMask (mask : Str) : RelatedResources :=
  (∅ : RelatedResources).insert (buildProvJournalResourcePathFromMscId "a") (.provJournal { imsiMask := mask })

theorem journalWithMask_stored (mask : Str) :
    (journalWithMask mask)[buildProvJournalResourcePathFromMscId (getMscId (staticDataPath "a" "12345"))]? =
      some (.provJournal { imsiMask := mask }) := by
  rw [getMscId_staticDataPath (by decide)]
  exact Std.ExtTreeMap.getElem?_insert_self

/-- Bit 30 of a mask of 18 characters is outside of it, and so is bit 4 of a mask of four characters. -/
theorem checkBitIsSet_outside :
    ¬ DecidesBit "0b1111111111111111" 30 ∧
      ¬ ∀ (R : RelatedResources) (p : Str) (journal : ProvJournal),
        R[buildProvJournalResourcePathFromMscId (getMscId p)]? = some (.provJournal journal) →
          DecidesAuC R p journal.imsiMask := by
  refine ⟨fun h => ?_, fun h => ?_⟩
  · exact absurd (decidesBit_iff.mp h) (by decide)
  · have hdecides := h _ _ _ (journalWithMask_stored "1010")
    exact absurd ((decidesAuC_iff (journalWithMask_stored "1010")).mp hdecides) (by decide)

theorem checkBitIsSet_decides_iff_example :
    DecidesBit "0b0000000000010000" 4 ∧
      DecidesAuC (journalWithMask "0b0000000000010000") (staticDataPath "a" "12345") "0b0000000000010000" := by
  obtain ⟨hbits, hrule⟩ := checkBitIsSet_decides_iff "0b0000000000010000"
  exact ⟨(hbits 4).mpr (by decide), (hrule _ _ _ (journalWithMask_stored _) rfl).mpr (Or.inr (by decide))⟩

end AuthProvValidator
