import IntentGraph.Key.Template
import Mathlib.Data.List.Basic
import Mathlib.Data.List.TakeWhile

/-!
# Renaming in templates

A text starts with a reference iff it starts with the spelling of one
(`reference?_append_of_spells`, `spells_of_reference?`), and a spelling has no
opening brace but the two that it begins with. So a reference never runs into
the next one, and it does not matter to the characters before a reference which
key it refers to: the pieces of a text with other names for its keys are the
pieces with other names (`pieces_substitute`). Hence a renamed text refers to
the keys that it referred to, the old one replaced by the new
(`keysIn_renameInString`).
-/

namespace IntentGraph

namespace Template

/-! ## Keys -/

/-- No key goes on with this character. -/
def EndsKey (c : Char) : Prop := isKeyChar c = false ∧ c ≠ '.'

theorem toNat_of_isKeyChar {c : Char} (h : isKeyChar c = true) :
    (65 ≤ c.toNat ∧ c.toNat ≤ 90) ∨ (97 ≤ c.toNat ∧ c.toNat ≤ 122)
      ∨ (48 ≤ c.toNat ∧ c.toNat ≤ 57) ∨ c.toNat = 95 := by
  rcases Bool.or_eq_true_iff.1 h with halphanum | hunderscore
  · rcases Bool.or_eq_true_iff.1 halphanum with halpha | hdigit
    · rcases Bool.or_eq_true_iff.1 halpha with hupper | hlower
      · obtain ⟨hlo, hhi⟩ := of_decide_eq_true hupper
        exact .inl ⟨hlo, hhi⟩
      · obtain ⟨hlo, hhi⟩ := Bool.and_eq_true_iff.1 hlower
        exact .inr (.inl ⟨of_decide_eq_true hlo, of_decide_eq_true hhi⟩)
    · obtain ⟨hlo, hhi⟩ := Bool.and_eq_true_iff.1 hdigit
      exact .inr (.inr (.inl ⟨of_decide_eq_true hlo, of_decide_eq_true hhi⟩))
  · obtain rfl : c = '_' := of_decide_eq_true hunderscore
    exact .inr (.inr (.inr rfl))

theorem endsKey_of_isBlank {c : Char} (h : Text.isBlank c = true) :
    EndsKey c := by
  have hblank := h
  simp only [Text.isBlank, Bool.or_eq_true, Bool.and_eq_true,
    decide_eq_true_eq, beq_iff_eq] at hblank
  refine ⟨Bool.eq_false_iff.2 fun hc => ?_, ?_⟩
  · have hrange := toNat_of_isKeyChar hc
    omega
  · rintro rfl
    revert h
    decide

theorem endsKey_closing : EndsKey '\x7d' := ⟨by decide, by decide⟩

theorem isKeyChar_of_isKeyStart {c : Char} (h : isKeyStart c = true) :
    isKeyChar c = true := by
  rcases Bool.or_eq_true_iff.1 h with halpha | hunderscore
  · exact Bool.or_eq_true_iff.2 (.inl (Bool.or_eq_true_iff.2 (.inl halpha)))
  · exact Bool.or_eq_true_iff.2 (.inr hunderscore)

theorem mem_splitKey_fst {cs : List Char} {c : Char} (h : c ∈ (splitKey cs).1) :
    isKeyChar c = true ∨ c = '.' := by
  induction cs with
  | nil => cases h
  | cons d rest ih =>
    unfold splitKey at h
    split at h
    · next hd =>
      rcases List.mem_cons.1 h with rfl | h
      · simp only [Bool.or_eq_true, Bool.and_eq_true, decide_eq_true_eq] at hd
        exact hd.imp_right And.left
      · exact ih h
    · cases h

theorem splitKey_append_of_forall {cs : List Char}
    (h : ∀ c ∈ cs, isKeyChar c = true) (rest : List Char) :
    splitKey (cs ++ rest) = (cs ++ (splitKey rest).1, (splitKey rest).2) := by
  induction cs with
  | nil => rfl
  | cons c cs ih =>
    rw [List.cons_append, splitKey, if_pos (by simp [h c List.mem_cons_self]),
      ih fun d hd => h d (List.mem_cons_of_mem _ hd)]
    rfl

theorem splitKey_of_forall {cs : List Char} (h : ∀ c ∈ cs, isKeyChar c = true) :
    splitKey cs = (cs, []) := by
  have happend := splitKey_append_of_forall h []
  rwa [splitKey, List.append_nil] at happend

/-- What is cut off as a key is a key to its end. -/
theorem splitKey_splitKey_fst (cs : List Char) :
    (splitKey (splitKey cs).1).2 = [] := by
  induction cs with
  | nil => rfl
  | cons c rest ih =>
    by_cases hc :
      (isKeyChar c || c = '.' && (rest.head?.map isKeyChar).getD false) = true
    · have hfst : (splitKey (c :: rest)).1 = c :: (splitKey rest).1 := by
        rw [splitKey, if_pos hc]
      -- a dot goes on with the key only before a character of it, and that one
      -- is cut off with it
      have hhead : (isKeyChar c
          || c = '.' && ((splitKey rest).1.head?.map isKeyChar).getD false)
            = true := by
        cases rest with
        | nil => simpa [splitKey] using hc
        | cons d rest =>
          by_cases hd : isKeyChar d = true
          · have hkeep : (splitKey (d :: rest)).1 = d :: (splitKey rest).1 := by
              rw [splitKey, if_pos (by simp [hd])]
            rw [hkeep]
            simpa using hc
          · have hchar : isKeyChar c = true := by simpa [hd] using hc
            simp [hchar]
      rw [hfst, splitKey, if_pos hhead]
      exact ih
    · rw [splitKey, if_neg hc]
      rfl

/-- A key ends where no key goes on. -/
theorem splitKey_append_of_endsKey {key rest : List Char}
    (hkey : (splitKey key).2 = []) (hrest : ∀ c ∈ rest.head?, EndsKey c) :
    splitKey (key ++ rest) = (key, rest) := by
  induction key with
  | nil =>
    cases rest with
    | nil => rfl
    | cons c rest =>
      obtain ⟨hchar, hdot⟩ := hrest c rfl
      rw [List.nil_append, splitKey, if_neg (by simp [hchar, hdot])]
  | cons c key ih =>
    rw [splitKey] at hkey
    split at hkey
    · next hc =>
      -- a dot is never the last character of a key, so the same follows it
      have hhead : (isKeyChar c
          || c = '.' && ((key ++ rest).head?.map isKeyChar).getD false)
            = true := by
        cases key with
        | nil =>
          have hchar : isKeyChar c = true := by simpa using hc
          simp [hchar]
        | cons d key => simpa using hc
      rw [List.cons_append, splitKey, if_pos hhead, ih hkey]
    · cases hkey

theorem mem_of_isKey {cs : List Char} {c : Char} (h : isKey cs = true)
    (hc : c ∈ cs) :
    isKeyChar c = true ∨ c = '.' := by
  have hend : (splitKey cs).2 = [] :=
    List.isEmpty_iff.1 (Bool.and_eq_true_iff.1 h).2
  have hall : (splitKey cs).1 = cs := by
    have happend := splitKey_append cs
    rwa [hend, List.append_nil] at happend
  exact mem_splitKey_fst (hall ▸ hc)

/-! ## Spellings of references -/

/-- The text of a reference to a key: the key and the word before it between
double braces, with blanks on either side. -/
def Spells (key spelling : List Char) : Prop :=
  isKey key = true ∧ ∃ before after, (∀ c ∈ before, Text.isBlank c = true)
    ∧ (∀ c ∈ after, Text.isBlank c = true)
    ∧ spelling = opening ++ (before ++ (marker ++ (key ++ (after ++ closing))))

theorem spells_spell {key : List Char} (h : isKey key = true) :
    Spells key (spell key) :=
  ⟨h, [], [], by simp, by simp, by simp [spell]⟩

theorem dropWhile_isBlank_append {before rest : List Char}
    (hbefore : ∀ c ∈ before, Text.isBlank c = true)
    (hrest : ∀ c ∈ rest.head?, ¬ Text.isBlank c) :
    (before ++ rest).dropWhile Text.isBlank = rest := by
  rw [List.dropWhile_append_of_pos hbefore]
  cases rest with
  | nil => rfl
  | cons c rest => rw [List.dropWhile_cons, if_neg (hrest c rfl)]

theorem reference?_append_of_spells {key spelling : List Char}
    (h : Spells key spelling) (rest : List Char) :
    reference? (spelling ++ rest) = some (key, rest) := by
  obtain ⟨hkey, before, after, hbefore, hafter, rfl⟩ := h
  obtain ⟨hstart, hend⟩ := Bool.and_eq_true_iff.1 hkey
  have hcut : ∀ start rest : List Char,
      start.isPrefixOf? (start ++ rest) = some rest := fun _ _ =>
    List.isPrefixOf?_eq_some_iff_append_eq.2 rfl
  simp only [reference?, List.append_assoc, hcut, Option.bind_eq_bind,
    Option.bind_some]
  -- the reader skips the blanks on either side and stops at the next part
  have hmarker :
      (before ++ (marker ++ (key ++ (after ++ (closing ++ rest))))).dropWhile
        Text.isBlank = marker ++ (key ++ (after ++ (closing ++ rest))) :=
    dropWhile_isBlank_append hbefore (by simp [marker]; decide)
  have hclosing : (after ++ (closing ++ rest)).dropWhile Text.isBlank
      = closing ++ rest :=
    dropWhile_isBlank_append hafter (by simp [closing]; decide)
  -- the key is as long as it can be: a blank or a brace ends it
  have hsplit : splitKey (key ++ (after ++ (closing ++ rest)))
      = (key, after ++ (closing ++ rest)) := by
    refine splitKey_append_of_endsKey (List.isEmpty_iff.1 hend) fun c hc => ?_
    cases after with
    | nil =>
      obtain rfl : '\x7d' = c := by simpa [closing] using hc
      exact endsKey_closing
    | cons d after =>
      obtain rfl : d = c := by simpa using hc
      exact endsKey_of_isBlank (hafter d List.mem_cons_self)
  have hhead :
      ((key ++ (after ++ (closing ++ rest))).head?.map isKeyStart).getD
        false = true := by
    cases key with
    | nil => cases hstart
    | cons c key => exact hstart
  rw [hmarker, hcut, Option.bind_some, if_pos hhead, hsplit]
  simp only [hclosing, hcut]
  rfl

theorem spells_of_reference? {cs key rest : List Char}
    (h : reference? cs = some (key, rest)) :
    ∃ spelling, Spells key spelling ∧ cs = spelling ++ rest := by
  simp only [reference?, Option.bind_eq_bind, Option.bind_eq_some_iff,
    List.isPrefixOf?_eq_some_iff_append_eq] at h
  obtain ⟨inner, rfl, path, hpath, h⟩ := h
  split at h
  · next hstart =>
    obtain ⟨after, hafter, h⟩ := Option.bind_eq_some_iff.1 h
    rw [List.isPrefixOf?_eq_some_iff_append_eq] at hafter
    cases h
    -- put together what the reader took apart, from the end of the reference to
    -- its beginning
    have hafter' : (splitKey path).2
        = (splitKey path).2.takeWhile Text.isBlank ++ (closing ++ rest) := by
      rw [hafter, List.takeWhile_append_dropWhile]
    have hpath' :
        path = (splitKey path).1
          ++ ((splitKey path).2.takeWhile Text.isBlank
            ++ (closing ++ rest)) := by
      rw [← hafter', splitKey_append]
    have hinner : inner = inner.takeWhile Text.isBlank ++ (marker ++ path) := by
      rw [hpath, List.takeWhile_append_dropWhile]
    -- the guard looks at the first character of the path, which is that of the
    -- key
    have hkey : isKey (splitKey path).1 = true := by
      have hhead :
          ((splitKey path).1.head?.map isKeyStart).getD false = true := by
        cases path with
        | nil => exact hstart
        | cons c path =>
          have hc : isKeyStart c = true := hstart
          rw [splitKey, if_pos (by simp [isKeyChar_of_isKeyStart hc])]
          exact hc
      rw [isKey, hhead, splitKey_splitKey_fst]
      rfl
    refine ⟨_, ⟨hkey, inner.takeWhile Text.isBlank,
      (splitKey path).2.takeWhile Text.isBlank,
      fun c hc => List.mem_takeWhile_imp hc,
      fun c hc => List.mem_takeWhile_imp hc, rfl⟩, ?_⟩
    calc opening ++ inner
        = opening ++ (inner.takeWhile Text.isBlank ++ (marker ++ path)) :=
          congrArg _ hinner
      _ = opening ++ (inner.takeWhile Text.isBlank
            ++ (marker ++ ((splitKey path).1
              ++ ((splitKey path).2.takeWhile Text.isBlank
                ++ (closing ++ rest))))) :=
        congrArg (fun cs =>
          opening ++ (inner.takeWhile Text.isBlank ++ (marker ++ cs))) hpath'
      _ = _ := by simp only [List.append_assoc]
  · cases h

theorem exists_of_spells {key spelling : List Char} (h : Spells key spelling) :
    ∃ body, spelling = '\x7b' :: '\x7b' :: body ∧ body ≠ []
      ∧ '\x7b' ∉ body := by
  obtain ⟨hkey, before, after, hbefore, hafter, rfl⟩ := h
  refine ⟨_, rfl, by simp [marker], ?_⟩
  have hblank : ∀ cs : List Char, (∀ c ∈ cs, Text.isBlank c = true) →
      '\x7b' ∉ cs :=
    fun cs hcs hmem => absurd (hcs _ hmem) (by decide)
  have hnotkey : '\x7b' ∉ key := by
    intro hmem
    rcases mem_of_isKey hkey hmem with hchar | hdot
    · exact absurd hchar (by decide)
    · exact absurd hdot (by decide)
  have hnotmarker : '\x7b' ∉ marker := by decide
  have hnotclosing : '\x7b' ∉ closing := by decide
  change '\x7b' ∉ before ++ (marker ++ (key ++ (after ++ closing)))
  simp only [List.mem_append, not_or]
  exact ⟨hblank before hbefore, hnotmarker, hnotkey,
    hblank after hafter, hnotclosing⟩

/-! ## Pieces -/

theorem pieces_nil : pieces [] = [] := by rw [pieces]

theorem pieces_append_of_spells {key spelling : List Char}
    (h : Spells key spelling) (rest : List Char) :
    pieces (spelling ++ rest) = .reference key spelling :: pieces rest := by
  obtain ⟨body, rfl, _, _⟩ := exists_of_spells h
  have hreference := reference?_append_of_spells h rest
  rw [List.cons_append, pieces]
  split
  · next hsome =>
    rw [List.cons_append] at hreference
    obtain ⟨rfl, rfl⟩ :=
      Prod.mk.inj (Option.some.inj (hsome.symm.trans hreference))
    congr 2
    rw [← List.cons_append, List.length_append, Nat.add_sub_cancel,
      List.take_left]
  · next hnone =>
    rw [List.cons_append, hnone] at hreference
    cases hreference

theorem pieces_cons {c : Char} {rest : List Char}
    (h : reference? (c :: rest) = none) :
    pieces (c :: rest) = .char c :: pieces rest := by
  rw [pieces]
  split
  · next hsome =>
    rw [h] at hsome
    cases hsome
  · rfl

/-- A text is gone through reference by reference, and character by character
between them. -/
@[elab_as_elim]
theorem references_induction {motive : List Char → Prop} (nil : motive [])
    (reference : ∀ key spelling rest, Spells key spelling → motive rest →
      motive (spelling ++ rest))
    (char : ∀ c rest, reference? (c :: rest) = none → motive rest →
      motive (c :: rest))
    (cs : List Char) : motive cs := by
  induction cs using pieces.induct with
  | case1 => exact nil
  | case2 c rest key after h ih =>
    obtain ⟨spelling, hspells, heq⟩ := spells_of_reference? h
    rw [heq]
    exact reference key spelling after hspells ih
  | case3 c rest h ih => exact char c rest h ih

/-! ## Substitution -/

/-- The piece that stands for a piece once keys have other names: `name` gives
the new name of a key, if it has one. -/
def Piece.substitute (name : List Char → Option (List Char)) : Piece → Piece
  | .char c => .char c
  | .reference key spelling =>
    match name key with
    | some new => .reference new (spell new)
    | none => .reference key spelling

/-- The text with other names for its keys. -/
def substitute (name : List Char → Option (List Char)) (cs : List Char) :
    List Char :=
  ((pieces cs).map (Piece.substitute name)).flatMap Piece.spelling

section substitute

variable {name : List Char → Option (List Char)}

theorem substitute_nil :
    substitute name [] = [] := by rw [substitute, pieces_nil]; rfl

theorem substitute_append_of_spells {key spelling : List Char}
    (h : Spells key spelling) (rest : List Char) :
    substitute name (spelling ++ rest)
      = (Piece.substitute name (.reference key spelling)).spelling
        ++ substitute name rest := by
  rw [substitute, pieces_append_of_spells h]
  rfl

theorem substitute_cons {c : Char} {rest : List Char}
    (h : reference? (c :: rest) = none) :
    substitute name (c :: rest) = c :: substitute name rest := by
  rw [substitute, pieces_cons h]
  rfl

/-- What stands for a reference starts like one. -/
theorem exists_substituted (name : List Char → Option (List Char))
    {key spelling : List Char} (h : Spells key spelling) : ∃ body,
      (Piece.substitute name (.reference key spelling)).spelling
        = '\x7b' :: '\x7b' :: body := by
  rw [Piece.substitute]
  split
  · exact ⟨_, rfl⟩
  · obtain ⟨body, hbody, _⟩ := exists_of_spells h
    exact ⟨body, hbody⟩

/-- Up to the next reference the text is as it was. -/
theorem exists_append_of_substitute {cs body tail : List Char}
    (hbody : '\x7b' ∉ body) (h : substitute name cs = body ++ tail) :
    ∃ rest, cs = body ++ rest := by
  induction cs using references_induction generalizing body with
  | nil =>
    rw [substitute_nil] at h
    exact ⟨[], by rw [(List.append_eq_nil_iff.1 h.symm).1]; rfl⟩
  | reference key spelling rest hspells _ =>
    obtain ⟨start, hstart⟩ := exists_substituted name hspells
    cases body with
    | nil => exact ⟨_, rfl⟩
    | cons b body =>
      -- the text would begin with a brace here, and has none
      rw [substitute_append_of_spells hspells, hstart] at h
      obtain ⟨rfl, _⟩ := List.cons.inj h
      exact absurd List.mem_cons_self hbody
  | char c rest hnone ih =>
    cases body with
    | nil => exact ⟨_, rfl⟩
    | cons b body =>
      rw [substitute_cons hnone] at h
      obtain ⟨rfl, htail⟩ := List.cons.inj h
      obtain ⟨rest', rfl⟩ :=
        ih (fun hmem => hbody (List.mem_cons_of_mem _ hmem)) htail
      exact ⟨rest', rfl⟩

/-- Other names in what follows a character make no reference of it. -/
theorem reference?_cons_substitute {c : Char} {rest : List Char}
    (h : reference? (c :: rest) = none) :
    reference? (c :: substitute name rest) = none := by
  rw [Option.eq_none_iff_forall_ne_some]
  rintro ⟨key, tail⟩ hsome
  obtain ⟨spelling, hspells, heq⟩ := spells_of_reference? hsome
  obtain ⟨body, rfl, hne, hbody⟩ := exists_of_spells hspells
  obtain ⟨rfl, hrest⟩ := List.cons.inj heq
  change substitute name rest = '\x7b' :: (body ++ tail) at hrest
  -- the rest would have to begin with the other half of the spelling, so cases
  -- on how it begins
  clear hsome heq
  induction rest using references_induction with
  | nil =>
    rw [substitute_nil] at hrest
    cases hrest
  | reference key' spelling' rest' hspells' _ =>
    -- the second brace of the spelling would be the first of the next one
    obtain ⟨start, hstart⟩ := exists_substituted name hspells'
    rw [substitute_append_of_spells hspells', hstart] at hrest
    obtain ⟨b, body', rfl⟩ := List.exists_cons_of_ne_nil hne
    obtain ⟨rfl, _⟩ := List.cons.inj (List.cons.inj hrest).2
    exact absurd List.mem_cons_self hbody
  | char d rest' hnone _ =>
    -- the spelling stood there before, where nothing was read
    rw [substitute_cons hnone] at hrest
    obtain ⟨rfl, hbody'⟩ := List.cons.inj hrest
    obtain ⟨rest'', rfl⟩ := exists_append_of_substitute hbody hbody'
    have hreference := reference?_append_of_spells hspells rest''
    rw [List.cons_append, List.cons_append, h] at hreference
    cases hreference

/-- The pieces of a text with other names are the pieces with other names. -/
theorem pieces_substitute
    (hname : ∀ key new, name key = some new → isKey new = true)
    (cs : List Char) :
    pieces (substitute name cs) = (pieces cs).map (Piece.substitute name) := by
  induction cs using references_induction with
  | nil => rw [substitute_nil, pieces_nil]; rfl
  | reference key spelling rest hspells ih =>
    rw [substitute_append_of_spells hspells, pieces_append_of_spells hspells,
      List.map_cons, ← ih, Piece.substitute]
    split
    · next new hnew =>
      exact pieces_append_of_spells (spells_spell (hname key new hnew)) _
    · exact pieces_append_of_spells hspells _
  | char c rest hnone ih =>
    rw [substitute_cons hnone, pieces_cons hnone,
      pieces_cons (reference?_cons_substitute hnone), ih]
    rfl

/-- A text with other names refers to the keys under their new names. -/
theorem keys_substitute
    (hname : ∀ key new, name key = some new → isKey new = true)
    (cs : List Char) :
    (pieces (substitute name cs)).filterMap Piece.key?
      = ((pieces cs).filterMap Piece.key?).map fun key =>
        ((name key.toList).map String.ofList).getD key := by
  rw [pieces_substitute hname, List.filterMap_map, List.map_filterMap]
  congr 1
  funext piece
  cases piece with
  | char c => rfl
  | reference key spelling =>
    simp only [Function.comp_apply, Piece.substitute, Piece.key?,
      Option.map_some, String.toList_ofList]
    cases name key <;> rfl

/-- Other names that were given before do not matter where every piece gets the
same name after all. -/
theorem substitute_substitute {name' : List Char → Option (List Char)}
    (hname : ∀ key new, name key = some new → isKey new = true)
    (hpiece : ∀ piece : Piece, (piece.substitute name).substitute name'
      = piece.substitute name')
    (cs : List Char) :
    substitute name' (substitute name cs) = substitute name' cs := by
  rw [substitute, pieces_substitute hname, List.map_map, substitute]
  exact congrArg (fun f => ((pieces cs).map f).flatMap Piece.spelling)
    (funext hpiece)

/-- A text with other names that has no braces is the text. -/
theorem substitute_eq_self {cs : List Char} (h : '\x7b' ∉ substitute name cs) :
    substitute name cs = cs := by
  induction cs using references_induction with
  | nil => exact substitute_nil
  | reference key spelling rest hspells _ =>
    obtain ⟨start, hstart⟩ := exists_substituted name hspells
    rw [substitute_append_of_spells hspells, hstart] at h
    exact absurd List.mem_cons_self h
  | char c rest hnone ih =>
    rw [substitute_cons hnone] at h ⊢
    rw [ih fun hmem => h (List.mem_cons_of_mem _ hmem)]

/-- A text stays as it is if no key that it refers to has another name. -/
theorem substitute_eq_of_forall {cs : List Char}
    (h : ∀ key ∈ (pieces cs).filterMap Piece.key?, name key.toList = none) :
    substitute name cs = cs := by
  induction cs using references_induction with
  | nil => exact substitute_nil
  | reference key spelling rest hspells ih =>
    rw [pieces_append_of_spells hspells] at h
    obtain ⟨hfirst, hrest⟩ := List.forall_mem_cons.1 h
    rw [String.toList_ofList] at hfirst
    rw [substitute_append_of_spells hspells, ih hrest, Piece.substitute, hfirst]
    rfl
  | char c rest hnone ih =>
    rw [pieces_cons hnone, List.filterMap_cons_none rfl] at h
    rw [substitute_cons hnone, ih h]

end substitute

/-- A text without double braces refers to nothing. -/
theorem keys_pieces_eq_nil {cs : List Char}
    (h : Text.occursIn opening cs = false) :
    (pieces cs).filterMap Piece.key? = [] := by
  induction cs using references_induction with
  | nil => rw [pieces_nil]; rfl
  | reference key spelling rest hspells _ =>
    obtain ⟨body, rfl, _⟩ := exists_of_spells hspells
    simp [Text.occursIn, opening] at h
  | char c rest hnone ih =>
    rw [pieces_cons hnone, List.filterMap_cons_none rfl,
      ih (Bool.or_eq_false_iff.1 h).2]

theorem not_occursIn_opening {cs : List Char} (h : '\x7b' ∉ cs) :
    Text.occursIn opening cs = false := by
  induction cs with
  | nil => rfl
  | cons c rest ih =>
    obtain ⟨hc, hrest⟩ := not_or.1 (mt List.mem_cons.2 h)
    rw [Text.occursIn, ih hrest, Bool.or_false, opening, List.isPrefixOf,
      beq_false_of_ne hc, Bool.false_and]

/-! ## Renaming in strings -/

/-- Another name for one key alone. -/
def single (old new : List Char) (key : List Char) : Option (List Char) :=
  if key = old then some new else none

theorem isKey_of_single {old new : List Char} (hnew : isKey new = true) :
    ∀ key name, single old new key = some name → isKey name = true := by
  intro key name h
  obtain ⟨_, hname⟩ := Option.ite_none_right_eq_some.1 h
  cases hname
  exact hnew

theorem toList_rename (old new s : String) :
    (rename old new s).toList
      = substitute (single old.toList new.toList) s.toList := by
  have hpiece : ∀ piece : Piece, piece.renamed old.toList new.toList
      = (piece.substitute (single old.toList new.toList)).spelling := by
    rintro (c | ⟨key, spelling⟩)
    · rfl
    · by_cases hkey : key = old.toList <;>
        simp [Piece.renamed, Piece.substitute, single, hkey, Piece.spelling]
  rw [rename, String.toList_ofList, substitute, List.flatMap_map]
  exact congrArg (List.flatMap · (pieces s.toList)) (funext hpiece)

/-- The look for double braces only saves work. -/
theorem renameInString_eq_rename (old new s : String) :
    renameInString old new s = rename old new s := by
  unfold renameInString
  split
  · rfl
  · next h =>
    apply String.toList_injective
    rw [toList_rename]
    refine (substitute_eq_of_forall ?_).symm
    rw [keys_pieces_eq_nil (Bool.eq_false_iff.2 h)]
    exact List.forall_mem_nil _

theorem toList_renameInString (old new s : String) :
    (renameInString old new s).toList
    = substitute (single old.toList new.toList) s.toList := by
  rw [renameInString_eq_rename, toList_rename]

/-- A renamed string without braces is the string. -/
theorem renameInString_eq_self {old new s : String}
    (h : '\x7b' ∉ (renameInString old new s).toList) :
    renameInString old new s = s := by
  rw [toList_renameInString] at h
  exact String.toList_injective
    (by rw [toList_renameInString, substitute_eq_self h])

/-- A renamed string refers to the renamed keys. -/
theorem keysIn_renameInString {old new : String}
    (hnew : isKey new.toList = true) (s : String) :
    keysIn (renameInString old new s)
      = (keysIn s).map fun key => if key = old then new else key := by
  rw [keysIn, toList_renameInString,
    keys_substitute (isKey_of_single hnew), keysIn]
  congr 1
  funext key
  by_cases hkey : key = old
  · simp [single, hkey]
  · have hne : key.toList ≠ old.toList :=
      fun h => hkey (String.toList_injective h)
    simp [single, hkey, hne]

/-- A string without braces refers to nothing. -/
theorem keysIn_eq_nil {s : String} (h : '\x7b' ∉ s.toList) : keysIn s = [] :=
  keys_pieces_eq_nil (not_occursIn_opening h)

theorem renameInString_of_not_mem {old new s : String} (h : old ∉ keysIn s) :
    renameInString old new s = s := by
  apply String.toList_injective
  rw [toList_renameInString]
  refine substitute_eq_of_forall fun key hkey => if_neg fun heq => h ?_
  rwa [← String.toList_injective heq]

/-- Renaming leaves a string alone iff it does not refer to the old key. -/
theorem renameInString_eq_self_iff {old new : String}
    (hnew : isKey new.toList = true) (hne : old ≠ new) (s : String) :
    renameInString old new s = s ↔ old ∉ keysIn s := by
  constructor
  · intro hkeep hold
    have hkeys : keysIn s = (keysIn s).map fun key => if key = old
        then new else key :=
      (congrArg keysIn hkeep).symm.trans (keysIn_renameInString hnew s)
    rw [hkeys] at hold
    obtain ⟨key, _, hkey⟩ := List.mem_map.1 hold
    split at hkey
    · exact hne hkey.symm
    · next hother => exact hother hkey
  · exact renameInString_of_not_mem

end Template

end IntentGraph
