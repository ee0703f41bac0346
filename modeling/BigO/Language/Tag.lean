-- Tags. A tag asks for a language by name, in any case and with blanks around
-- it; one that names no language is read as the default one, with a remark.
import BigO.Language
import BigO.Text.Quoted

namespace BigO

open BigO.Text

/-- The tag that asks for no language in particular. -/
def autoTag : String := "auto"

/-- A tag as it is compared: trimmed, in lower case, short names spelt out, and the tag for any language where nothing
is left (`normalize_language_tag`). -/
def canonicalTag (tag : Option String) : String :=
  let clean := toLower (trim (tag.getD "").toList)
  if clean = [] then autoTag
  else if clean = ['p', 'y'] then Language.python.name
  else String.ofList clean

/-- The tag is the one for any language, or the name of a language (`is_supported`). -/
def isKnownTag (tag : Option String) : Bool :=
  canonicalTag tag == autoTag || (Language.ofName? (canonicalTag tag)).isSome

/-- The language that a tag is read as (`profile_for`). -/
def Language.ofTag (tag : Option String) : Language :=
  (Language.ofName? (canonicalTag tag)).getD Language.fallback

/-- What is said of a tag that names no language. -/
def unknownTagNote (tag : Option String) : String :=
  s!"Language {quote (canonicalTag tag)} is not supported; analysed as {Language.fallback.name}."

/-- The remarks on a tag: one if it names no language, else none (`resolve_language`). -/
def tagNotes (tag : Option String) : List String :=
  if isKnownTag tag then [] else [unknownTagNote tag]

/-! ## What a tag is read as -/

/-- A tag without the blanks around it and in lower case. No tag is an empty one. -/
def bareTag (tag : Option String) : String :=
  String.ofList (toLower (trim (tag.getD "").toList))

theorem canonicalTag_eq (tag : Option String) : canonicalTag tag =
    if bareTag tag = "" then "auto"
    else if bareTag tag = "py" then "python"
    else bareTag tag := by
  have hempty : bareTag tag = "" ↔ toLower (trim (tag.getD "").toList) = [] :=
    String.ofList_eq_empty_iff
  have hshort : bareTag tag = "py" ↔ toLower (trim (tag.getD "").toList) = ['p', 'y'] :=
    @String.ofList_inj _ ['p', 'y']
  simp only [hempty, hshort]
  rfl

/-- The language that a tag names, or the default one if it names none. -/
inductive ReadAs (tag : Option String) : Language → Prop
  | named {lang : Language} : lang.name = bareTag tag → ReadAs tag lang
  | unnamed : (∀ lang : Language, lang.name ≠ bareTag tag) → ReadAs tag .python

theorem readAs_ofTag (tag : Option String) : ReadAs tag (Language.ofTag tag) := by
  rw [Language.ofTag, canonicalTag_eq]
  split
  · rename_i hempty
    exact .unnamed fun lang => by rw [hempty]; cases lang <;> decide
  · split
    · rename_i hshort
      exact .unnamed fun lang => by rw [hshort]; cases lang <;> decide
    · cases hname : Language.ofName? (bareTag tag) with
      | some lang => exact .named (Language.ofName?_eq_some_iff.mp hname)
      | none =>
        refine .unnamed fun lang hlang => ?_
        rw [Language.ofName?_eq_some_iff.mpr hlang] at hname
        cases hname

/-- A tag is read as one language only. -/
theorem ReadAs.unique {tag : Option String} {a b : Language} (ha : ReadAs tag a)
    (hb : ReadAs tag b) : a = b := by
  cases ha with
  | named ha =>
    cases hb with
    | named hb => exact Language.name_injective (ha.trans hb.symm)
    | unnamed hb => exact absurd ha (hb a)
  | unnamed ha =>
    cases hb with
    | named hb => exact absurd hb (ha b)
    | unnamed _ => rfl

theorem readAs_iff {tag : Option String} {lang : Language} :
    ReadAs tag lang ↔ Language.ofTag tag = lang := by
  constructor
  · exact (readAs_ofTag tag).unique
  · rintro rfl
    exact readAs_ofTag tag

/-! ## What a tag is told -/

/-- The tag asks for any language, or for one that there is, by its name or its short name. -/
def IsSupported (tag : Option String) : Prop :=
  bareTag tag ∈ ["", "auto", "py"] ∨ ∃ lang : Language, lang.name = bareTag tag

theorem isKnownTag_iff (tag : Option String) : isKnownTag tag = true ↔ IsSupported tag := by
  rw [isKnownTag, Bool.or_eq_true, beq_iff_eq, Language.isSome_ofName?_iff, canonicalTag_eq,
    IsSupported]
  split
  · rename_i hempty
    simp [hempty, autoTag]
  · rename_i hempty
    split
    · rename_i hshort
      have hpython : ∃ lang : Language, lang.name = "python" := ⟨.python, rfl⟩
      simp [hshort, hpython]
    · rename_i hshort
      simp [hempty, hshort, autoTag]

/-- The remarks that belong to a tag: none if it is supported, else the one that says so. -/
inductive TagRemarks (tag : Option String) : List String → Prop
  | supported : IsSupported tag → TagRemarks tag []
  | unsupported : ¬ IsSupported tag →
      TagRemarks tag
        ["Language " ++ quote (bareTag tag) ++ " is not supported; analysed as python."]

/-- A tag that is not supported is told as it is compared. -/
theorem canonicalTag_of_not_isSupported {tag : Option String} (h : ¬ IsSupported tag) :
    canonicalTag tag = bareTag tag := by
  have hshort : bareTag tag ∉ ["", "auto", "py"] := fun hmem => h (.inl hmem)
  simp only [List.mem_cons, List.not_mem_nil, or_false, not_or] at hshort
  rw [canonicalTag_eq, if_neg hshort.1, if_neg hshort.2.2]

theorem unknownTagNote_eq (tag : Option String) : unknownTagNote tag =
    "Language " ++ quote (canonicalTag tag) ++ " is not supported; analysed as python." := by
  have hend : " is not supported; analysed as " ++ (Language.fallback.name ++ ".") =
      " is not supported; analysed as python." := by decide
  rw [← hend, ← String.append_assoc, ← String.append_assoc]
  rfl

theorem tagRemarks_tagNotes (tag : Option String) : TagRemarks tag (tagNotes tag) := by
  unfold tagNotes
  split
  · rename_i hknown
    exact .supported ((isKnownTag_iff tag).mp hknown)
  · rename_i hunknown
    have hnot : ¬ IsSupported tag := fun h => hunknown ((isKnownTag_iff tag).mpr h)
    rw [unknownTagNote_eq, canonicalTag_of_not_isSupported hnot]
    exact .unsupported hnot

end BigO
