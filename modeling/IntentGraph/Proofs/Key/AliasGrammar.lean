import IntentGraph.Proofs.Key.FilterAlias

/-!
# The grammar of ad-hoc spellings

An ad-hoc spelling of a filter key is the word "filter" before a name
(`WordBefore`) or behind it (`WordBehind`). A key of the first form is read so,
even where it has the second form too (`SpellsFilter`). These are all keys that
have another spelling, and what they mean is the name in the namespace of
filters, its first letter a small one (`filterAlias?_eq_some_iff`).

What is meant never is such a spelling again, and a reference to it refers to it
and to nothing else (`alias_unchained`).
-/

namespace IntentGraph

namespace Key

/-! ## The two forms -/

/-- A text is the word with a name behind it: any name behind a separator, and a
capitalized one directly behind the word. -/
inductive WordBefore : (text name : List Char) → Prop
  | separated {word name : List Char} : word ∈ separatedWords → IsName name →
    WordBefore (word ++ name) name
  | joined {name : List Char} :
    IsCapitalized name → WordBefore ("filter".toList ++ name) name

/-- The name of a filter with a small letter. -/
structure IsUncapitalized (name : List Char) : Prop extends IsName name where
  small : (name.head?.map Char.isLower).getD false = true

/-- A text is a name with a small letter and the word behind it: after a
separator, or capitalized directly behind the name. -/
inductive WordBehind : (text name : List Char) → Prop
  | mk {ending name : List Char} : ending ∈ filterEndings →
    IsUncapitalized name →
    WordBehind (name ++ ending) name

/-- A text is an ad-hoc spelling of a name. The word before a name counts
first. -/
def SpellsFilter (text name : List Char) : Prop :=
  WordBefore text name ∨ (∀ other, ¬ WordBefore text other)
    ∧ WordBehind text name

/-! ## The word before a name -/

theorem nameAfterFilter?_eq_some_iff {text name : List Char} :
    nameAfterFilter? text = some name ↔ WordBefore text name := by
  constructor
  · intro h
    rcases exists_of_nameAfterFilter? h
      with ⟨word, hword, hname, rfl⟩ | ⟨hname, rfl⟩
    · exact .separated hword hname
    · exact .joined hname
  · intro h
    cases h with
    | separated hword hname => exact nameAfterFilter?_separated hword hname
    | joined hname => exact nameAfterFilter?_capitalized hname

/-! ## The word behind a name -/

theorem isLowerName_iff {name : List Char} :
    isLowerName name = true ↔ IsUncapitalized name := by
  rw [isLowerName, Bool.and_eq_true_iff, List.all_eq_true]
  constructor
  · rintro ⟨hsmall, halphanum⟩
    refine ⟨⟨?_, halphanum⟩, hsmall⟩
    cases name with
    | nil => exact hsmall
    | cons c rest => exact isAlpha_of_isLower hsmall
  · rintro ⟨⟨_, halphanum⟩, hsmall⟩
    exact ⟨hsmall, halphanum⟩

/-- An ending goes on with no other one behind letters and digits: either it is
that one, or there is a separator before that. -/
theorem eq_nil_of_filterEndings {ending ending' middle : List Char}
    (hending : ending ∈ filterEndings) (hending' : ending' ∈ filterEndings)
    (halphanum : ∀ c ∈ middle, c.isAlphanum = true)
    (heq : ending = middle ++ ending') :
    middle = [] := by
  have hcut : ∀ ending ∈ filterEndings, ∀ ending' ∈ filterEndings,
      ∀ n ≤ ending.length, ending.drop n = ending' →
        (ending.take n).all Char.isAlphanum = true → n = 0 := by decide
  subst heq
  refine List.length_eq_zero_iff.1
    (hcut _ hending _ hending' middle.length ?_ ?_ ?_)
  · simp
  · exact List.drop_left
  · rw [List.take_left]
    exact List.all_eq_true.2 halphanum

/-- A text has one name before the word at most. -/
theorem WordBehind.unique {text name name' : List Char}
    (h : WordBehind text name) (h' : WordBehind text name') : name = name' := by
  obtain ⟨hending, hname⟩ := h
  generalize hsame : name ++ _ = same at h'
  obtain ⟨hending', hname'⟩ := h'
  rcases List.append_eq_append_iff.1 hsame
    with ⟨middle, rfl, heq⟩ | ⟨middle, rfl, heq⟩
  · have hmiddle := eq_nil_of_filterEndings hending hending'
      (fun c hc => hname'.alphanum c (List.mem_append_right _ hc)) heq
    rw [hmiddle, List.append_nil]
  · have hmiddle := eq_nil_of_filterEndings hending' hending
      (fun c hc => hname.alphanum c (List.mem_append_right _ hc)) heq
    rw [hmiddle, List.append_nil]

theorem nameBeforeFilter?_eq_some_iff {text name : List Char} :
    nameBeforeFilter? text = some name ↔ WordBehind text name := by
  have hsound : ∀ {name}, nameBeforeFilter? text = some name →
      WordBehind text name := by
    intro name h
    obtain ⟨ending, hending, hcut⟩ := List.exists_of_findSome?_eq_some h
    obtain ⟨hstrip, hname⟩ := Option.filter_eq_some_iff.1 hcut
    rw [← List.append_eq_of_isSuffixOf?_eq_some hstrip]
    exact .mk hending (isLowerName_iff.1 hname)
  refine ⟨hsound, fun h => ?_⟩
  -- some name is found, and there is no other
  cases hfound : nameBeforeFilter? text with
  | some other => rw [(hsound hfound).unique h]
  | none =>
    obtain ⟨hending, hname⟩ := h
    have hcut := List.findSome?_eq_none_iff.1 hfound _ hending
    rw [List.isSuffixOf?_eq_some_iff_append_eq.2 rfl, Option.filter_some,
      if_pos (isLowerName_iff.2 hname)] at hcut
    cases hcut

/-! ## Ad-hoc spellings -/

theorem SpellsFilter.isName {text name : List Char}
    (h : SpellsFilter text name) : IsName name := by
  rcases h with hbefore | ⟨_, hbehind⟩
  · cases hbefore with
    | separated _ hname => exact hname
    | joined hname => exact hname.toIsName
  · cases hbehind with
    | mk _ hname => exact hname.toIsName

theorem SpellsFilter.not_mem_dot {text name : List Char}
    (h : SpellsFilter text name) :
    '.' ∉ text := by
  have hwords : ∀ word ∈ separatedWords, '.' ∉ word := by decide
  have hendings : ∀ ending ∈ filterEndings, '.' ∉ ending := by decide
  have hname := h.isName.not_mem_dot
  rcases h with hbefore | ⟨_, hbehind⟩
  · cases hbefore with
    | separated hword _ => exact List.not_mem_append (hwords _ hword) hname
    | joined _ => exact List.not_mem_append (by decide) hname
  · cases hbehind with
    | mk hending _ => exact List.not_mem_append hname (hendings _ hending)

/-- The key that a name is meant by, in the namespace of filters. -/
def meantBy (name : List Char) : String :=
  filterNamespace ++ "." ++ String.ofList (lowerFirst name)

/-- The keys that mean another one are the ad-hoc spellings of names. -/
theorem filterAlias?_eq_some_iff {key new : String} :
    filterAlias? key = some new ↔ ∃ name, SpellsFilter key.toList name
      ∧ new = meantBy name := by
  have hspells :
      ∀ name, (nameAfterFilter? key.toList).or (nameBeforeFilter? key.toList)
        = some name
      ↔ SpellsFilter key.toList name := by
    intro name
    rw [Option.or_eq_some_iff, Option.eq_none_iff_forall_ne_some,
      nameBeforeFilter?_eq_some_iff, nameAfterFilter?_eq_some_iff]
    simp only [ne_eq, nameAfterFilter?_eq_some_iff, SpellsFilter]
  rw [filterAlias?]
  split
  · next hdot =>
    constructor
    · intro h
      cases h
    · rintro ⟨name, hname, _⟩
      exact absurd (List.contains_iff_mem.1 hdot) hname.not_mem_dot
  · rw [Option.map_eq_some_iff]
    constructor
    · rintro ⟨name, hname, rfl⟩
      exact ⟨name, (hspells name).1 hname, rfl⟩
    · rintro ⟨name, hname, rfl⟩
      exact ⟨name, (hspells name).2 hname, rfl⟩

/-! ## What is meant -/

/-- What is meant is a small letter, with letters and digits behind it, in the
namespace. -/
theorem IsName.exists_meantBy {name : List Char} (h : IsName name) :
    ∃ first rest, first.isLower = true ∧ (∀ c ∈ rest, c.isAlphanum = true)
      ∧ meantBy name = "filters." ++ String.ofList (first :: rest) := by
  cases name with
  | nil => cases h.start
  | cons c rest =>
    exact ⟨c.toLower, rest, isLower_toLower h.start,
      fun d hd => h.alphanum d (List.mem_cons_of_mem _ hd), rfl⟩

/-- A reference to a key. -/
def referenceTo (key : String) : String := "\x7b\x7bstate." ++ key ++ "\x7d\x7d"

theorem toList_referenceTo (key : String) :
    (referenceTo key).toList = Template.spell key.toList := by
  simp [referenceTo, Template.spell, Template.opening, Template.marker,
    Template.closing]

/-- A reference to a key that a reference can name is that reference and nothing
else. -/
theorem pieces_referenceTo {key : String}
    (h : Template.isKey key.toList = true) :
    Template.pieces (referenceTo key).toList
      = [.reference key.toList (referenceTo key).toList] := by
  have hpieces := Template.pieces_append_of_spells (Template.spells_spell h) []
  rwa [List.append_nil, Template.pieces_nil, ← toList_referenceTo] at hpieces

/-- The keys with another spelling, and what they mean, are known exactly, and
what is meant has no other spelling in turn: it is a name in the namespace of
filters, with a small first letter. An ad-hoc spelling lies in no namespace. A
reference to what is meant is one to it and to it alone. -/
theorem alias_unchained (key new : String) :
    (filterAlias? key = some new ↔ ∃ name, SpellsFilter key.toList name
      ∧ new = meantBy name)
      ∧ (filterAlias? key = some new →
        '.' ∉ key.toList
          ∧ (∃ first rest, first.isLower = true
            ∧ (∀ c ∈ rest, c.isAlphanum = true)
            ∧ new = "filters." ++ String.ofList (first :: rest))
          ∧ isFilterKey new = true
          ∧ filterAlias? new = none
          ∧ Template.pieces (referenceTo new).toList
            = [.reference new.toList (referenceTo new).toList]
          ∧ Template.keysIn (referenceTo new) = [new]) := by
  refine ⟨filterAlias?_eq_some_iff, fun h => ?_⟩
  obtain ⟨name, hname, rfl⟩ := filterAlias?_eq_some_iff.1 h
  have hpieces := pieces_referenceTo (isKey_meant h)
  refine ⟨hname.not_mem_dot, hname.isName.exists_meantBy, ?_,
    filterAlias?_of_filterAlias? h, hpieces, ?_⟩
  · obtain ⟨first, rest, _, _, heq⟩ := hname.isName.exists_meantBy
    rw [heq]
    exact isFilterKey_iff.2 ⟨String.ofList (first :: rest), by simp, rfl⟩
  · rw [Template.keysIn, hpieces]
    simp [Template.Piece.key?]

/-- The word stands before a name and behind one. -/
theorem alias_unchained_bothWays :
    filterAlias? "filterRegionFilter" = some "filters.regionFilter"
    ∧ SpellsFilter "filterRegionFilter".toList "RegionFilter".toList
    ∧ filterAlias? "filters.regionFilter" = none
    ∧ Template.keysIn "\x7b\x7bstate.filters.regionFilter\x7d\x7d"
      = ["filters.regionFilter"] := by
  have hmeant :
      filterAlias? "filterRegionFilter" = some "filters.regionFilter" := by
    decide +kernel
  obtain ⟨_, _, _, hunchained, _, hkeys⟩ :=
    (alias_unchained "filterRegionFilter" "filters.regionFilter").2 hmeant
  refine ⟨hmeant, .inl (.joined ⟨.of_all ?_ ?_, ?_⟩), hunchained, hkeys⟩
    <;> decide

end Key

end IntentGraph
