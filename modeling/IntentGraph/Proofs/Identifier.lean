import IntentGraph.Repair.Synthesis
import Mathlib.Data.List.Nodup

/-!
# Canonical and fresh ids

* `IsCanonical`: an id of nothing but the letters `a` to `z`, digits and
  underscores; `isCanonical_canonicalId` says that canonical spelling makes one
  of any text.
* `IsCanonical.canonicalId_eq`: canonical spelling leaves a canonical id alone.
* `canonicalId_retraction`: so it keeps the texts over the alphabet of ids, and
  brings every other text to one of them.
* `freshId_not_mem`: a fresh id is not taken. Of the numbered candidates there
  is one more than there are ids taken, and no two are equal.
* `isCanonical_freshId`, `head?_freshId`: a fresh id is canonical and begins as
  its base does.
-/

namespace IntentGraph

/-! ## Canonical ids -/

/-- Nothing but the letters `a` to `z`, digits and underscores. -/
def IsCanonical (id : String) : Prop := ∀ c ∈ id.toList, isIdChar c = true

/-- The characters of ids, one by one. -/
def idAlphabet : List Char := "abcdefghijklmnopqrstuvwxyz0123456789_".toList

theorem isIdChar_of_canonicalChar? {c d : Char}
    (h : canonicalChar? c = some d) :
    isIdChar d = true := by
  unfold canonicalChar? at h
  split at h
  · cases h
    rfl
  · split at h
    · next hc =>
      cases h
      exact hc
    · cases h

theorem isCanonical_canonicalId (raw : String) :
    IsCanonical (canonicalId raw) := by
  intro c hc
  rw [canonicalId, String.toList_ofList] at hc
  obtain ⟨b, _, hb⟩ := List.mem_filterMap.1 hc
  exact isIdChar_of_canonicalChar? hb

theorem IsCanonical.append {a b : String} (ha : IsCanonical a)
    (hb : IsCanonical b) :
    IsCanonical (a ++ b) := by
  intro c hc
  rw [String.toList_append, List.mem_append] at hc
  exact hc.elim (ha c) (hb c)

theorem isCanonical_toString (n : Nat) : IsCanonical (toString n) := by
  intro c hc
  rw [Nat.toString_eq_repr, Nat.toList_repr] at hc
  have hdigit : c.isDigit = true :=
    Nat.isDigit_of_mem_toDigits (by decide) (by decide) hc
  simp [isIdChar, hdigit]

/-! ## Canonical spelling of what is canonical -/

theorem toNat_of_isIdChar {c : Char} (h : isIdChar c = true) :
    (97 ≤ c.toNat ∧ c.toNat ≤ 122) ∨ (48 ≤ c.toNat ∧ c.toNat ≤ 57)
      ∨ c.toNat = 95 := by
  simp only [isIdChar, Char.isDigit, Bool.or_eq_true, Bool.and_eq_true,
    decide_eq_true_eq] at h
  rcases h with (⟨hlo, hhi⟩ | ⟨hlo, hhi⟩) | rfl
  · exact .inl ⟨hlo, hhi⟩
  · exact .inr (.inl ⟨hlo, hhi⟩)
  · exact .inr (.inr rfl)

theorem isIdChar_iff_mem_idAlphabet {c : Char} :
    isIdChar c = true ↔ c ∈ idAlphabet := by
  have hletter : ∀ n < 26, Char.ofNat (97 + n) ∈ idAlphabet := by decide
  have hdigit : ∀ n < 10, Char.ofNat (48 + n) ∈ idAlphabet := by decide
  have halphabet : ∀ c ∈ idAlphabet, isIdChar c = true :=
    List.all_eq_true.1 (by decide)
  constructor
  · intro h
    rw [← Char.ofNat_toNat c]
    rcases toNat_of_isIdChar h with ⟨hlo, hhi⟩ | ⟨hlo, hhi⟩ | hline
    · rw [← Nat.add_sub_of_le hlo]
      exact hletter (c.toNat - 97) (by omega)
    · rw [← Nat.add_sub_of_le hlo]
      exact hdigit (c.toNat - 48) (by omega)
    · rw [hline]
      decide
  · exact halphabet c

theorem isCanonical_iff {id : String} :
    IsCanonical id ↔ ∀ c ∈ id.toList, c ∈ idAlphabet :=
  forall₂_congr fun _ _ => isIdChar_iff_mem_idAlphabet

theorem isBlank_eq_false_of_isIdChar {c : Char} (h : isIdChar c = true) :
    Text.isBlank c = false := by
  have hrange := toNat_of_isIdChar h
  simp only [Text.isBlank, Bool.or_eq_false_iff, Bool.and_eq_false_iff,
    decide_eq_false_iff_not, beq_eq_false_iff_ne]
  omega

theorem toLower_of_isIdChar {c : Char} (h : isIdChar c = true) :
    c.toLower = c := by
  have hrange := toNat_of_isIdChar h
  unfold Char.toLower
  split
  · next hupper =>
    have hlo : 65 ≤ c.toNat := hupper.1
    have hhi : c.toNat ≤ 90 := hupper.2
    omega
  · rfl

/-- Lower-casing starts with the characters of an id that it meets first. -/
theorem lowerAfter_cons_of_isIdChar {c : Char} (h : isIdChar c = true)
    (before rest : List Char) :
    Text.lowerAfter before (c :: rest)
      = c :: Text.lowerAfter (c :: before) rest := by
  have hrange := toNat_of_isIdChar h
  have hsigma : c ≠ 'Σ' := by
    rintro rfl
    revert hrange
    decide
  have hlower : Text.lowerChar c = [c] := by
    have hascii : c.toNat < 0x80 := by omega
    rw [Text.lowerChar, if_pos hascii, toLower_of_isIdChar h]
  rw [Text.lowerAfter, if_neg hsigma, hlower]
  rfl

theorem lowerAfter_of_isCanonical {before cs : List Char}
    (h : ∀ c ∈ cs, isIdChar c = true) :
    Text.lowerAfter before cs = cs := by
  induction cs generalizing before with
  | nil => rfl
  | cons c rest ih =>
    rw [lowerAfter_cons_of_isIdChar (h c List.mem_cons_self),
      ih fun d hd => h d (List.mem_cons_of_mem _ hd)]

theorem canonicalChar?_of_isIdChar {c : Char} (h : isIdChar c = true) :
    canonicalChar? c = some c := by
  have hdash : c ≠ '-' := by
    rintro rfl
    exact absurd h (by decide)
  simp [canonicalChar?, isBlank_eq_false_of_isIdChar h, hdash, h]

/-- A canonical id is its own canonical spelling. -/
theorem IsCanonical.canonicalId_eq {id : String} (h : IsCanonical id) :
    canonicalId id = id := by
  have htrim : Text.trim id.toList = id.toList := by
    have hdrop : ∀ cs : List Char, (∀ c ∈ cs, isIdChar c = true) →
        cs.dropWhile Text.isBlank = cs := by
      intro cs hcs
      cases cs with
      | nil => rfl
      | cons c rest =>
        rw [List.dropWhile_cons,
          isBlank_eq_false_of_isIdChar (hcs c List.mem_cons_self)]
        rfl
    rw [Text.trim, Text.trimEnd, hdrop _ h, hdrop _ fun c hc =>
      h c (List.mem_reverse.1 hc), List.reverse_reverse]
  have hkeep : id.toList.filterMap canonicalChar? = id.toList := by
    rw [List.filterMap_congr fun c hc => canonicalChar?_of_isIdChar (h c hc),
      List.filterMap_some]
  rw [canonicalId, htrim, Text.lowercase, lowerAfter_of_isCanonical h, hkeep,
    String.ofList_toList]

/-- Canonical spelling is a retraction onto the texts over the alphabet of ids:
every text comes to one of them, these and no others stay as they are, and so a
second time changes nothing. -/
theorem canonicalId_retraction (raw : String) :
    (∀ c ∈ (canonicalId raw).toList, c ∈ idAlphabet)
      ∧ (canonicalId raw = raw ↔ ∀ c ∈ raw.toList, c ∈ idAlphabet)
      ∧ canonicalId (canonicalId raw) = canonicalId raw := by
  have hcanonical := isCanonical_canonicalId raw
  refine ⟨isCanonical_iff.1 hcanonical, ?_, hcanonical.canonicalId_eq⟩
  rw [← isCanonical_iff]
  constructor
  · intro hkept
    exact hkept ▸ hcanonical
  · exact IsCanonical.canonicalId_eq

/-- A capital with two characters in lower case, a sign that is lower-cased into
the alphabet, and blanks of three sorts. -/
example : canonicalId "\u00a0İzmir \u212a-9\u2003Σ! " = "izmir_k_9_" := by
  decide +kernel

/-- Trimming keeps a first character that is not blank. -/
theorem exists_trim_cons {c : Char} (h : Text.isBlank c = false)
    (rest : List Char) :
    ∃ tail, Text.trim (c :: rest) = c :: tail := by
  have hfirst : (c :: rest).dropWhile Text.isBlank = c :: rest := by
    rw [List.dropWhile_cons, h]
    rfl
  obtain ⟨kept, hkept⟩ : ∃ kept, (rest.reverse ++ [c]).dropWhile Text.isBlank
      = kept ++ [c] := by
    rw [List.dropWhile_append]
    split
    · exact ⟨[], by rw [List.dropWhile_cons, h]; rfl⟩
    · exact ⟨_, rfl⟩
  refine ⟨kept.reverse, ?_⟩
  rw [Text.trim, hfirst, Text.trimEnd, List.reverse_cons, hkept,
    List.reverse_append]
  rfl

/-- The canonical spelling of a text that begins with a character of an id
begins with it too. -/
theorem head?_canonicalId {raw : String} {c : Char}
    (hraw : raw.toList.head? = some c) (hc : isIdChar c = true) :
    (canonicalId raw).toList.head? = some c := by
  obtain ⟨rest, hrest⟩ := List.head?_eq_some_iff.1 hraw
  obtain ⟨tail, htail⟩ :=
    exists_trim_cons (isBlank_eq_false_of_isIdChar hc) rest
  rw [canonicalId, String.toList_ofList, hrest, htail, Text.lowercase,
    lowerAfter_cons_of_isIdChar hc,
    List.filterMap_cons_some (canonicalChar?_of_isIdChar hc)]
  rfl

/-! ## Fresh ids -/

/-- A numbered candidate for a fresh id. -/
def numberedId (id : String) (n : Nat) : String := id ++ "_" ++ toString (n + 2)

theorem numberedId_injective (id : String) :
    Function.Injective (numberedId id) := by
  intro m n h
  have htail : toString (m + 2) = toString (n + 2) := by
    have hlist := congrArg String.toList h
    simp only [numberedId, String.toList_append] at hlist
    exact String.toList_inj.1 (List.append_cancel_left hlist)
  have hdigits := congrArg (fun s => Nat.ofDigitChars 10 s.toList 0) htail
  simp only [Nat.toString_eq_repr, Nat.toList_repr,
    Nat.ofDigitChars_ten_toDigits] at hdigits
  omega

theorem freshId_eq (taken : List String) (base : String) :
    freshId taken base =
      if canonicalId base ∈ taken then
        (((List.range (taken.length + 1)).map
          (numberedId (canonicalId base))).find? fun candidate =>
            !taken.contains candidate).getD (canonicalId base)
      else canonicalId base := by
  simp only [freshId, List.contains_iff_mem]
  rfl

/-- One of more candidates than there are ids taken is free. -/
theorem exists_numberedId_not_mem (taken : List String) (id : String) :
    ∃ candidate ∈ (List.range (taken.length + 1)).map (numberedId id),
      candidate ∉ taken := by
  by_contra hall
  push Not at hall
  have hnodup : ((List.range (taken.length + 1)).map (numberedId id)).Nodup :=
    List.nodup_range.map (numberedId_injective id)
  have hle := hnodup.length_le_of_subset hall
  rw [List.length_map, List.length_range] at hle
  omega

theorem find?_numberedId_isSome (taken : List String) (id : String) :
    (((List.range (taken.length + 1)).map (numberedId id)).find?
      fun candidate => !taken.contains candidate).isSome := by
  obtain ⟨candidate, hmem, hfree⟩ := exists_numberedId_not_mem taken id
  rw [List.find?_isSome]
  exact ⟨candidate, hmem, by simpa using hfree⟩

/-- A fresh id is not taken. -/
theorem freshId_not_mem (taken : List String) (base : String) :
    freshId taken base ∉ taken := by
  rw [freshId_eq]
  split
  · obtain ⟨candidate, hfind⟩ :=
      Option.isSome_iff_exists.1
        (find?_numberedId_isSome taken (canonicalId base))
    rw [hfind, Option.getD_some]
    simpa using List.find?_some hfind
  · assumption

/-- A fresh id is the canonical spelling of its base, or a number stands behind
that. -/
theorem freshId_eq_or (taken : List String) (base : String) :
    freshId taken base = canonicalId base
      ∨ ∃ n, freshId taken base = numberedId (canonicalId base) n := by
  rw [freshId_eq]
  split
  · obtain ⟨candidate, hfind⟩ :=
      Option.isSome_iff_exists.1
        (find?_numberedId_isSome taken (canonicalId base))
    rw [hfind, Option.getD_some]
    obtain ⟨n, _, rfl⟩ := List.mem_map.1 (List.mem_of_find?_eq_some hfind)
    exact .inr ⟨n, rfl⟩
  · exact .inl rfl

/-- A fresh id is canonical. -/
theorem isCanonical_freshId (taken : List String) (base : String) :
    IsCanonical (freshId taken base) := by
  have hbase := isCanonical_canonicalId base
  rcases freshId_eq_or taken base with heq | ⟨n, heq⟩
  · rw [heq]
    exact hbase
  · have hline : IsCanonical "_" := by simp [IsCanonical, isIdChar]
    rw [heq]
    exact (hbase.append hline).append (isCanonical_toString _)

/-- A fresh id begins as its base does. -/
theorem head?_freshId (taken : List String) {base : String} {c : Char}
    (hbase : base.toList.head? = some c) (hc : isIdChar c = true) :
    (freshId taken base).toList.head? = some c := by
  have hhead := head?_canonicalId hbase hc
  rcases freshId_eq_or taken base with heq | ⟨n, heq⟩
  · rw [heq]
    exact hhead
  · rw [heq, numberedId, String.toList_append, String.toList_append,
      List.append_assoc, List.head?_append, hhead]
    rfl

end IntentGraph
