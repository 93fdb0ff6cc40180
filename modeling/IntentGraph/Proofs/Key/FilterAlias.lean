import IntentGraph.Key.Companion
import IntentGraph.Key.FilterAlias
import IntentGraph.Proofs.Key.Template

/-!
# Ad-hoc spellings of filter keys

An ad-hoc spelling has a name in it (`exists_name_of_filterAlias?`). What it
means is a key in the namespace of filters, which is no ad-hoc spelling itself
(`filterAlias?_of_filterAlias?`). Neither has a brace in it, so that no rename
of a key makes or breaks a reference.

The status and the error key of a call are ad-hoc spellings for two reasons: the
assigned key is one, or it is the word "filter" alone
(`filterAlias?_companion_iff`).
-/

namespace IntentGraph

namespace Key

/-! ## Names -/

/-- The name of a filter: a letter, and then letters and digits. -/
structure IsName (name : List Char) : Prop where
  start : (name.head?.map Char.isAlpha).getD false = true
  alphanum : ∀ c ∈ name, c.isAlphanum = true

theorem ne_brace_of_isAlphanum {c : Char} (h : c.isAlphanum = true) :
    c ≠ '\x7b' := by
  rintro rfl
  revert h
  decide

theorem IsName.not_mem_brace {name : List Char} (h : IsName name) :
    '\x7b' ∉ name :=
  fun hmem => ne_brace_of_isAlphanum (h.alphanum _ hmem) rfl

theorem IsName.not_mem_dot {name : List Char} (h : IsName name) : '.' ∉ name :=
  fun hmem => absurd (h.alphanum _ hmem) (by decide)

theorem isAlpha_of_isUpper {c : Char} (h : c.isUpper = true) :
    c.isAlpha = true :=
  Bool.or_eq_true_iff.2 (.inl h)

theorem isAlpha_of_isLower {c : Char} (h : c.isLower = true) :
    c.isAlpha = true :=
  Bool.or_eq_true_iff.2 (.inr h)

theorem isAlphanum_of_isAlpha {c : Char} (h : c.isAlpha = true) :
    c.isAlphanum = true :=
  Bool.or_eq_true_iff.2 (.inl h)

/-- In lower case a letter is a small one. -/
theorem isLower_toLower {c : Char} (h : c.isAlpha = true) :
    c.toLower.isLower = true := by
  unfold Char.toLower
  split
  · next hupper =>
    have hlo : 65 ≤ c.val.toNat := hupper.1
    have hhi : c.val.toNat ≤ 90 := hupper.2
    have hadd : (c.val + 32).toNat = c.val.toNat + 32 := by
      have hshift : (32 : UInt32).toNat = 32 := rfl
      rw [UInt32.toNat_add, hshift]
      exact Nat.mod_eq_of_lt (by omega)
    have hlower : 97 ≤ c.val + 32 ∧ c.val + 32 ≤ 122 := by
      rw [UInt32.le_iff_toNat_le, UInt32.le_iff_toNat_le, hadd]
      exact ⟨Nat.add_le_add_right hlo 32, Nat.add_le_add_right hhi 32⟩
    exact Bool.and_eq_true_iff.2 ⟨decide_eq_true hlower.1,
      decide_eq_true hlower.2⟩
  · next hnot =>
    exact (Bool.or_eq_true_iff.1 h).resolve_left fun hupper =>
      hnot (of_decide_eq_true hupper)

theorem isAlpha_toLower {c : Char} (h : c.isAlpha = true) :
    c.toLower.isAlpha = true :=
  isAlpha_of_isLower (isLower_toLower h)

theorem isAlphanum_toLower {c : Char} (h : c.isAlphanum = true) :
    c.toLower.isAlphanum = true := by
  rcases Bool.or_eq_true_iff.1 h with halpha | hdigit
  · exact isAlphanum_of_isAlpha (isAlpha_toLower halpha)
  · have hkeep : c.toLower = c := by
      unfold Char.toLower
      split
      · next hupper =>
        have hlo : 65 ≤ c.val.toNat := hupper.1
        have hhi : c.val.toNat ≤ 57 :=
          (Bool.and_eq_true_iff.1 hdigit).2 |> of_decide_eq_true
        omega
      · rfl
    rwa [hkeep]

theorem IsName.lowerFirst {name : List Char} (h : IsName name) :
    IsName (lowerFirst name) := by
  cases name with
  | nil => exact h
  | cons c rest =>
    have hstart : c.isAlpha = true := h.start
    refine ⟨?_, List.forall_mem_cons.2
      ⟨isAlphanum_toLower (h.alphanum c List.mem_cons_self),
        fun d hd => h.alphanum d (List.mem_cons_of_mem _ hd)⟩⟩
    show c.toLower.isAlpha = true
    exact isAlpha_toLower hstart

theorem IsName.of_all {name : List Char}
    (hstart : (name.head?.map Char.isAlpha).getD false = true)
    (hall : name.all Char.isAlphanum = true) : IsName name :=
  ⟨hstart, List.all_eq_true.1 hall⟩

/-! ## Before a name -/

/-- The word "filter" with a separator after it. -/
def separatedWords : List (List Char) :=
  ["filter_".toList, "filter-".toList, "Filter_".toList, "Filter-".toList]

/-- The name of a filter with a capital letter. -/
structure IsCapitalized (name : List Char) : Prop extends IsName name where
  capital : (name.head?.map Char.isUpper).getD false = true

theorem exists_of_nameAfterFilter? {cs name : List Char}
    (h : nameAfterFilter? cs = some name) :
    (∃ word ∈ separatedWords, IsName name ∧ cs = word ++ name)
      ∨ IsCapitalized name ∧ cs = "filter".toList ++ name := by
  cases cs with
  | nil => cases h
  | cons f rest =>
    simp only [nameAfterFilter?] at h
    split at h
    · cases h
    · next hf =>
      obtain ⟨after, hafter, h⟩ := Option.bind_eq_some_iff.1 h
      obtain rfl := List.append_eq_of_isPrefixOf?_eq_some hafter
      cases after with
      | nil => cases h
      | cons c rest =>
        change (if isAliasSeparator c = true then _ else _) = _ at h
        split at h
        · next hseparator =>
          -- a separator: any name may follow, and the word may begin with a
          -- capital
          obtain ⟨hname, hrest⟩ := Option.ite_none_right_eq_some.1 h
          obtain rfl := Option.some.inj hrest
          obtain ⟨hstart, hall⟩ := Bool.and_eq_true_iff.1 hname
          have hword :
              f :: 'i' :: 'l' :: 't' :: 'e' :: 'r' :: [c] ∈ separatedWords := by
            have hfirst : f = 'f' ∨ f = 'F' :=
              Decidable.or_iff_not_not_and_not.2 hf
            have hc : c = '_' ∨ c = '-' := by
              simpa [isAliasSeparator] using hseparator
            rcases hfirst with rfl | rfl <;> rcases hc with rfl | rfl <;> decide
          exact .inl ⟨_, hword, .of_all hstart hall, rfl⟩
        · -- no separator: the word is in lower case, and a capital begins the
          -- name
          obtain ⟨hname, hrest⟩ := Option.ite_none_right_eq_some.1 h
          obtain rfl := Option.some.inj hrest
          simp only [Bool.and_eq_true, decide_eq_true_eq] at hname
          obtain ⟨⟨rfl, hupper⟩, hall⟩ := hname
          have hname' : IsName (c :: rest) := by
            refine .of_all (isAlpha_of_isUpper hupper) ?_
            simp [isAlphanum_of_isAlpha (isAlpha_of_isUpper hupper), hall]
          exact .inr ⟨⟨hname', hupper⟩, rfl⟩

theorem nameAfterFilter?_separated {word name : List Char}
    (hword : word ∈ separatedWords) (hname : IsName name) :
    nameAfterFilter? (word ++ name) = some name := by
  simp only [separatedWords, List.mem_cons, List.not_mem_nil, or_false] at hword
  rcases hword with rfl | rfl | rfl | rfl <;>
    simpa [nameAfterFilter?, List.isPrefixOf?, isAliasSeparator, hname.start]
      using hname.alphanum

theorem nameAfterFilter?_capitalized {name : List Char}
    (hname : IsCapitalized name) :
    nameAfterFilter? ("filter".toList ++ name) = some name := by
  cases name with
  | nil => cases hname.capital
  | cons c rest =>
    have hupper : c.isUpper = true := hname.capital
    have hseparator : isAliasSeparator c = false := by
      cases hc : isAliasSeparator c with
      | false => rfl
      | true =>
        simp only [isAliasSeparator, Bool.or_eq_true, decide_eq_true_eq] at hc
        rcases hc with rfl | rfl <;> revert hupper <;> decide
    have hall : ∀ d ∈ rest, d.isAlphanum = true := fun d hd =>
      hname.alphanum d (List.mem_cons_of_mem _ hd)
    simpa [nameAfterFilter?, List.isPrefixOf?, hseparator, hupper] using hall

theorem isName_of_nameAfterFilter? {cs name : List Char}
    (h : nameAfterFilter? cs = some name) :
    IsName name ∧ '\x7b' ∉ cs := by
  have hwords : ∀ word ∈ separatedWords, '\x7b' ∉ word := by decide
  rcases exists_of_nameAfterFilter? h
    with ⟨word, hword, hname, rfl⟩ | ⟨hname, rfl⟩
  · rw [List.mem_append, not_or]
    exact ⟨hname, hwords word hword, hname.not_mem_brace⟩
  · rw [List.mem_append, not_or]
    exact ⟨hname.toIsName, by decide, hname.not_mem_brace⟩

/-! ## After a name -/

theorem isName_of_nameBeforeFilter? {cs name : List Char}
    (h : nameBeforeFilter? cs = some name) :
    IsName name ∧ '\x7b' ∉ cs := by
  obtain ⟨ending, hending, h⟩ := List.exists_of_findSome?_eq_some h
  obtain ⟨hstrip, hname⟩ := Option.filter_eq_some_iff.1 h
  obtain ⟨hstart, hall⟩ := Bool.and_eq_true_iff.1 hname
  have hname' : IsName name := by
    refine IsName.of_all ?_ hall
    cases name with
    | nil => exact hstart
    | cons c rest =>
      exact isAlpha_of_isLower hstart
  have hendings : ∀ ending ∈ filterEndings, '\x7b' ∉ ending := by decide
  rw [← List.append_eq_of_isSuffixOf?_eq_some hstrip, List.mem_append, not_or]
  exact ⟨hname', hname'.not_mem_brace, hendings ending hending⟩

/-! ## What is meant -/

/-- An ad-hoc spelling has no brace in it, and means a name in the namespace of
filters. -/
theorem exists_name_of_filterAlias? {key new : String}
    (h : filterAlias? key = some new) :
    '\x7b' ∉ key.toList
      ∧ ∃ name, IsName name ∧ new.toList = filterNamespace.toList
        ++ '.' :: name := by
  simp only [filterAlias?] at h
  split at h
  · cases h
  · obtain ⟨name, hname, rfl⟩ := Option.map_eq_some_iff.1 h
    have hkey : IsName name ∧ '\x7b' ∉ key.toList :=
      (Option.or_eq_some_iff.1 hname).elim isName_of_nameAfterFilter?
        fun h => isName_of_nameBeforeFilter? h.2
    exact ⟨hkey.2, lowerFirst name, hkey.1.lowerFirst, by simp⟩

/-- What is meant is no ad-hoc spelling. -/
theorem filterAlias?_of_filterAlias? {key new : String}
    (h : filterAlias? key = some new) :
    filterAlias? new = none := by
  obtain ⟨_, name, _, hnew⟩ := exists_name_of_filterAlias? h
  rw [filterAlias?, hnew]
  exact if_pos (by simp)

theorem not_mem_dot_of_filterAlias? {key new : String}
    (h : filterAlias? key = some new) :
    '.' ∉ key.toList := by
  intro hdot
  rw [filterAlias?] at h
  simp [hdot] at h

theorem ne_of_filterAlias? {key key' new : String}
    (h : filterAlias? key = some new) (h' : filterAlias? key' = none) :
    key ≠ key' := by
  rintro rfl
  rw [h] at h'
  cases h'

theorem not_mem_brace_of_filterAlias? {key new : String}
    (h : filterAlias? key = some new) :
    '\x7b' ∉ key.toList := (exists_name_of_filterAlias? h).1

theorem not_mem_brace_meant {key new : String}
    (h : filterAlias? key = some new) :
    '\x7b' ∉ new.toList := by
  obtain ⟨_, name, hname, hnew⟩ := exists_name_of_filterAlias? h
  rw [hnew, List.mem_append, not_or]
  exact ⟨by decide,
    List.not_mem_cons_of_ne_of_not_mem (by decide) hname.not_mem_brace⟩

/-- A template can refer to what is meant. -/
theorem isKey_meant {key new : String} (h : filterAlias? key = some new) :
    Template.isKey new.toList = true := by
  obtain ⟨_, name, hname, hnew⟩ := exists_name_of_filterAlias? h
  have hchar : ∀ c ∈ name, Template.isKeyChar c = true := fun c hc => by
    simp [Template.isKeyChar, hname.alphanum c hc]
  -- the dot is followed by a character of the name
  have hdot : Template.splitKey ('.' :: name) = ('.' :: name, []) := by
    have hhead : (name.head?.map Template.isKeyChar).getD false = true := by
      cases name with
      | nil => cases hname.start
      | cons c rest => exact hchar c List.mem_cons_self
    rw [Template.splitKey, if_pos (by simp [hhead]),
      Template.splitKey_of_forall hchar]
  have hword : ∀ c ∈ filterNamespace.toList, Template.isKeyChar c = true :=
    List.all_eq_true.1 (by decide)
  rw [hnew, Template.isKey, Template.splitKey_append_of_forall hword, hdot]
  rfl

/-! ## Companions -/

/-- The keys of which the companions are ad-hoc spellings: the word alone. -/
def filterWords : List String :=
  ["filter", "filter_", "filter-", "Filter_", "Filter-"]

/-- A companion does not end with the word. -/
theorem nameBeforeFilter?_companion {cs suffix : List Char}
    (hsuffix : suffix ∈ [statusSuffix.toList, errorSuffix.toList]) :
    nameBeforeFilter? (cs ++ suffix) = none := by
  rw [Option.eq_none_iff_forall_ne_some]
  intro name h
  obtain ⟨ending, hending, h⟩ := List.exists_of_findSome?_eq_some h
  have heq := congrArg List.reverse
    (List.append_eq_of_isSuffixOf?_eq_some (Option.filter_eq_some_iff.1 h).1)
  simp only [filterEndings, List.mem_cons, List.not_mem_nil,
    or_false] at hending hsuffix
  rcases hsuffix with rfl | rfl
    <;> rcases hending with rfl | rfl | rfl | rfl | rfl <;>
    simp [statusSuffix, errorSuffix] at heq

/-- If a companion begins with the word and its key is spelled right, the name
is the suffix. -/
theorem nameAfterFilter?_companion {cs suffix name : List Char}
    (hsuffix : suffix ∈ [statusSuffix.toList, errorSuffix.toList])
    (hnone : nameAfterFilter? cs = none)
    (h : nameAfterFilter? (cs ++ suffix) = some name) :
    cs ∈ filterWords.map String.toList := by
  have hstart : ∀ word ∈ filterWords.map String.toList,
      ∀ suffix ∈ [statusSuffix.toList, errorSuffix.toList],
        suffix.head?.any word.contains = false := by decide
  -- a name that goes on with the suffix would be a name without it
  have hcut : ∀ word ∈ filterWords.map String.toList, cs ++ suffix
      = word ++ name →
      (∀ start, start ≠ [] → name = start ++ suffix →
        nameAfterFilter? (word ++ start) = some start) → cs = word := by
    intro word hword heq hname
    rcases List.append_eq_append_iff.1 heq
      with ⟨start, rfl, hrest⟩ | ⟨start, rfl, hrest⟩
    · -- the word reaches into the suffix, which shares no first character with
      -- it
      cases start with
      | nil => rw [List.append_nil]
      | cons c start =>
        have hmem : (cs ++ c :: start).contains c = true :=
          List.contains_iff_mem.2 (List.mem_append_right cs List.mem_cons_self)
        have hnot := hstart _ hword suffix hsuffix
        rw [hrest] at hnot
        exact absurd (hmem.symm.trans hnot) (by decide)
    · -- the name reaches back into the key, which then has a name of its own
      by_cases hstart : start = []
      · rw [hstart, List.append_nil]
      · rw [hname start hstart hrest] at hnone
        cases hnone
  have hshorter : ∀ {start : List Char}, start ≠ [] → IsName (start ++ suffix) →
      IsName start := by
    intro start hne hname
    obtain ⟨c, rest, rfl⟩ := List.exists_cons_of_ne_nil hne
    exact ⟨hname.start,
      fun d hd => hname.alphanum d (List.mem_append_left _ hd)⟩
  rcases exists_of_nameAfterFilter? h
    with ⟨word, hword, hname, heq⟩ | ⟨hname, heq⟩
  · have hword' : word ∈ filterWords.map String.toList :=
      List.mem_cons_of_mem _ hword
    rw [hcut word hword' heq fun start hne hrest =>
      nameAfterFilter?_separated hword (hshorter hne (hrest ▸ hname))]
    exact hword'
  · have hword : "filter".toList ∈ filterWords.map String.toList :=
      List.mem_cons_self
    rw [hcut _ hword heq fun start hne hrest => ?_]
    · exact hword
    · obtain ⟨c, rest, rfl⟩ := List.exists_cons_of_ne_nil hne
      have hcapital := hname.capital
      rw [hrest] at hcapital
      exact nameAfterFilter?_capitalized
        ⟨hshorter hne (hrest ▸ hname.toIsName), hcapital⟩

/-- A companion of a key that is spelled right is an ad-hoc spelling iff the key
is the word alone. -/
theorem filterAlias?_companion_iff {key suffix : String}
    (h : filterAlias? key = none)
    (hsuffix : suffix ∈ [statusSuffix, errorSuffix]) :
    filterAlias? (key ++ suffix) ≠ none ↔ key ∈ filterWords := by
  have hsuffix' : suffix.toList ∈ [statusSuffix.toList, errorSuffix.toList] :=
    List.mem_map_of_mem hsuffix
  constructor
  · intro halias
    simp only [filterAlias?, String.toList_append,
      nameBeforeFilter?_companion hsuffix', Option.or_none] at halias
    split at halias
    · exact absurd rfl halias
    · next hdot =>
      have hdot' : ¬ key.toList.contains '.' = true := fun hmem =>
        hdot (List.contains_iff_mem.2
          (List.mem_append_left _ (List.contains_iff_mem.1 hmem)))
      rw [filterAlias?, if_neg hdot', Option.map_eq_none_iff,
        Option.or_eq_none_iff] at h
      obtain ⟨_, hsome⟩ := Option.ne_none_iff_exists'.1 halias
      obtain ⟨name, hname, _⟩ := Option.map_eq_some_iff.1 hsome
      obtain ⟨word, hword, heq⟩ :=
        List.mem_map.1 (nameAfterFilter?_companion hsuffix' h.1 hname)
      rwa [← String.toList_injective heq]
  · have hwords : ∀ key ∈ filterWords, ∀ suffix ∈ [statusSuffix, errorSuffix],
        filterAlias? (key ++ suffix) ≠ none := by decide +kernel
    exact fun hkey => hwords key hkey suffix hsuffix

/-! ## The namespace of filters -/

/-- A filter key is the namespace and a name behind a dot. -/
theorem isFilterKey_iff {key : String} :
    isFilterKey key = true ↔ ∃ name, name ≠ ""
      ∧ key = filterNamespace ++ "." ++ name := by
  unfold isFilterKey
  constructor
  · intro h
    split at h
    · next c cs hrest =>
      refine ⟨String.ofList (c :: cs), ?_, String.toList_injective ?_⟩
      · exact mt String.ofList_eq_empty_iff.1 (List.cons_ne_nil c cs)
      · rw [← List.append_eq_of_isPrefixOf?_eq_some hrest]
        simp
    · cases h
  · rintro ⟨name, hname, rfl⟩
    obtain ⟨c, cs, hcs⟩ : ∃ c cs, name.toList = c :: cs :=
      List.exists_cons_of_ne_nil (mt String.toList_eq_nil_iff.1 hname)
    have hrest : filterNamespace.toList.isPrefixOf?
        (filterNamespace ++ "." ++ name).toList = some ('.' :: c :: cs) := by
      rw [List.isPrefixOf?_eq_some_iff_append_eq]
      simp [hcs]
    simp only [hrest]

/-! ## What a key stands for -/

/-- The key that a key stands for: the one that is meant by an ad-hoc spelling,
or else the key itself. -/
def meant (key : String) : String := (filterAlias? key).getD key

theorem meant_eq_self_iff {key : String} :
    meant key = key ↔ filterAlias? key = none := by
  unfold meant
  cases halias : filterAlias? key with
  | none => simp
  | some new =>
    simp only [Option.getD_some, reduceCtorEq, iff_false]
    rintro rfl
    rw [filterAlias?_of_filterAlias? halias] at halias
    cases halias

theorem filterAlias?_meant (key : String) :
    filterAlias? (meant key) = none := by
  unfold meant
  cases halias : filterAlias? key with
  | none => exact halias
  | some new => exact filterAlias?_of_filterAlias? halias

theorem IsName.append {name suffix : List Char} (h : IsName name)
    (hsuffix : ∀ c ∈ suffix, c.isAlphanum = true) :
    IsName (name ++ suffix) where
  start := by
    cases name with
    | nil => cases h.start
    | cons c rest => exact h.start
  alphanum := List.forall_mem_append.2 ⟨h.alphanum, hsuffix⟩

/-- A longer name with the word before it. -/
theorem nameAfterFilter?_append {cs name suffix : List Char}
    (hsuffix : ∀ c ∈ suffix, c.isAlphanum = true)
    (h : nameAfterFilter? cs = some name) :
    nameAfterFilter? (cs ++ suffix) = some (name ++ suffix) := by
  rcases exists_of_nameAfterFilter? h
    with ⟨word, hword, hname, rfl⟩ | ⟨hname, rfl⟩
  · rw [List.append_assoc]
    exact nameAfterFilter?_separated hword (hname.append hsuffix)
  · rw [List.append_assoc]
    refine nameAfterFilter?_capitalized ⟨hname.toIsName.append hsuffix, ?_⟩
    cases name with
    | nil => cases hname.capital
    | cons c rest => exact hname.capital

theorem lowerFirst_append {name : List Char} (h : IsName name)
    (suffix : List Char) :
    lowerFirst (name ++ suffix) = lowerFirst name ++ suffix := by
  cases name with
  | nil => cases h.start
  | cons c rest => rfl

/-- A key that begins with the word and goes on with a name is an ad-hoc
spelling of the name. -/
theorem filterAlias?_of_nameAfterFilter? {key : String} {name : List Char}
    (h : nameAfterFilter? key.toList = some name) :
    filterAlias? key
      = some (filterNamespace ++ "." ++ String.ofList (lowerFirst name)) := by
  have hdot : ¬ key.toList.contains '.' = true := by
    have hwords : ∀ word ∈ separatedWords, '.' ∉ word := by decide
    rw [List.contains_iff_mem]
    rcases exists_of_nameAfterFilter? h
      with ⟨word, hword, hname, heq⟩ | ⟨hname, heq⟩
    · rw [heq, List.mem_append]
      exact not_or.2 ⟨hwords word hword, hname.not_mem_dot⟩
    · rw [heq, List.mem_append]
      exact not_or.2 ⟨by decide, hname.not_mem_dot⟩
  rw [filterAlias?, if_neg hdot, h]
  rfl

section companion

variable {key suffix : String} (hsuffix : suffix ∈ [statusSuffix, errorSuffix])
include hsuffix

/-- Where the word is before the name, the suffix goes on with the name. -/
theorem meant_companion_of_nameAfterFilter? {name : List Char}
    (hafter : nameAfterFilter? key.toList = some name) :
    meant (key ++ suffix) = meant key ++ suffix := by
  have halphanum : ∀ suffix ∈ [statusSuffix, errorSuffix],
      suffix.toList.all Char.isAlphanum = true := by decide
  have hname := (isName_of_nameAfterFilter? hafter).1
  have hcompanion :
      nameAfterFilter? (key ++ suffix).toList
        = some (name ++ suffix.toList) := by
    rw [String.toList_append]
    exact nameAfterFilter?_append
      (List.all_eq_true.1 (halphanum suffix hsuffix)) hafter
  rw [meant, meant, filterAlias?_of_nameAfterFilter? hcompanion,
    filterAlias?_of_nameAfterFilter? hafter, lowerFirst_append hname,
    Option.getD_some, Option.getD_some, String.ofList_append,
    String.ofList_toList, String.append_assoc, String.append_assoc,
    String.append_assoc]

/-- Where it is not, the companion is no ad-hoc spelling. -/
theorem filterAlias?_companion_eq_none (hword : key ∉ filterWords)
    (hafter : nameAfterFilter? key.toList = none) :
    filterAlias? (key ++ suffix) = none := by
  have hsuffix' : suffix.toList ∈ [statusSuffix.toList, errorSuffix.toList] :=
    List.mem_map_of_mem hsuffix
  have hcompanion : nameAfterFilter? (key.toList ++ suffix.toList) = none := by
    rw [Option.eq_none_iff_forall_ne_some]
    intro name hname
    obtain ⟨word, hmem, heq⟩ :=
      List.mem_map.1 (nameAfterFilter?_companion hsuffix' hafter hname)
    exact hword (String.toList_injective heq ▸ hmem)
  rw [filterAlias?, String.toList_append, hcompanion,
    nameBeforeFilter?_companion hsuffix']
  exact ite_self none

/-- The companion of a key stands for the companion of what the key stands for,
unless the key is the word alone or an ad-hoc spelling with the word behind the
name. -/
theorem meant_companion_iff :
    meant (key ++ suffix) = meant key ++ suffix
      ↔ key ∉ filterWords
        ∧ (filterAlias? key = none ∨ nameAfterFilter? key.toList ≠ none) := by
  cases halias : filterAlias? key with
  | none =>
    have hkey : meant key = key := meant_eq_self_iff.2 halias
    rw [hkey, meant_eq_self_iff, ← filterAlias?_companion_iff halias hsuffix]
    simp
  | some new =>
    have hwords : ∀ key ∈ filterWords, filterAlias? key = none := by
      decide +kernel
    -- the words themselves are spelled right
    have hword : key ∉ filterWords := by
      intro hmem
      rw [hwords key hmem] at halias
      cases halias
    cases hafter : nameAfterFilter? key.toList with
    | none =>
      -- the word stands behind the name: the suffix hides it
      have hnone := filterAlias?_companion_eq_none hsuffix hword hafter
      have hne : key ++ suffix ≠ meant key ++ suffix := by
        intro heq
        have hlist := congrArg String.toList heq
        rw [String.toList_append, String.toList_append] at hlist
        have hkey := String.toList_injective (List.append_cancel_right hlist)
        rw [meant_eq_self_iff.1 hkey.symm] at halias
        cases halias
      rw [meant_eq_self_iff.2 hnone]
      simp [hne]
    | some name =>
      simp [meant_companion_of_nameAfterFilter? hsuffix hafter, hword]

end companion

end Key

end IntentGraph
