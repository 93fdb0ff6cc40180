import IntentGraph.Proofs.Wire.Reading

/-!
# Structures and choices

A structure is read back from what it is written as, in whatever order the
entries come. In the order of declaration each entry sets the value that the
draft still lacks, and an entry that was left out would have set what the draft
has (`Enters`). Fields that are `Field.Apart` can change places, so the order
does not matter: `reads_record`. What holds of the draft and is kept by every
field holds of what is read: `yields_record`.

A choice is read back by its tag (`reads_alternative`, `yields_single`). Of a
value that fits no alternative all is kept, so it is read as the same value
again (`WrittenChoice.yields_readBack`), and written as it was
(`WrittenChoice.tolerates`).
-/

namespace IntentGraph

variable {α β γ : Type}

/-! ## Fields -/

namespace Field

variable {f g : Field α}

attribute [simp] required optional defaulted withAlias

/-- What is read at a field is set in the draft. -/
def Sets (f : Field α) (decode : Decoder β) (set : β → α → α) : Prop :=
  f.enter = fun source draft => (decode source).map (set · draft)

/-- Neither field answers to the other's name, and they can be entered in either
order. -/
structure Apart (f g : Field α) : Prop where
  name : f.answersTo g.name = false
  interchange : ∀ s t draft x, (f.enter s draft >>= g.enter t) = .ok x
    ↔ (g.enter t draft >>= f.enter s) = .ok x

/-- Fields that set different things are apart. -/
theorem Apart.of_sets {decode : Decoder β} {set : β → α → α}
    {decode' : Decoder γ} {set' : γ → α → α} (name : f.answersTo g.name = false)
    (hf : f.Sets decode set) (hg : g.Sets decode' set')
    (h : ∀ b c draft, set' c (set b draft) = set b (set' c draft)) :
    f.Apart g := by
  refine ⟨name, fun s t draft x => ?_⟩
  rw [hf, hg]
  show ((decode s).map (set · draft) >>= fun draft =>
    (decode' t).map (set' · draft)) = .ok x
    ↔ ((decode' t).map (set' · draft) >>= fun draft =>
      (decode s).map (set · draft)) = .ok x
  cases decode s with
  | error e =>
    cases decode' t with
    | error e' => exact ⟨nofun, nofun⟩
    | ok c => exact ⟨nofun, nofun⟩
  | ok b =>
    cases decode' t with
    | error e' => exact ⟨nofun, nofun⟩
    | ok c =>
      show Except.ok (set' c (set b draft)) = .ok x
        ↔ Except.ok (set b (set' c draft)) = .ok x
      rw [h]

/-- Fields that are spelled out are apart if their names and their updates are.
With this `simp` decides whether the fields of a structure are apart. -/
@[simp]
theorem apart_mk {name name' : String} {aliases aliases' : List String}
    {presence presence' : Presence} {decode : Decoder β} {set : β → α → α}
    {decode' : Decoder γ} {set' : γ → α → α}
    (hname : (name' == name || aliases.contains name') = false)
    (h : ∀ b c draft, set' c (set b draft) = set b (set' c draft)) :
    Apart ⟨name, aliases, presence, fun s draft => (decode s).map (set · draft)⟩
      ⟨name', aliases', presence',
        fun s draft => (decode' s).map (set' · draft)⟩ :=
  .of_sets hname rfl rfl h

/-- The field keeps what holds of the draft. -/
def Keeps (P : α → Prop) (f : Field α) : Prop :=
  ∀ v : Json, v.isSorted = true → ∀ draft x, P draft →
    f.enter v.toSource draft = .ok x → P x

theorem Keeps.of_sets {P : α → Prop} {decode : Decoder β} {set : β → α → α}
    {Q : β → Prop} (hf : f.Sets decode set) (hdecode : Yields decode Q)
    (h : ∀ b draft, Q b → P draft → P (set b draft)) : f.Keeps P := by
  intro v hv draft x hdraft hx
  rw [hf] at hx
  obtain ⟨b, hb, rfl⟩ := exists_of_map_eq_ok hx
  exact h b draft (hdecode v hv b hb) hdraft

theorem answersTo_name (f : Field α) : f.answersTo f.name = true := by
  simp [answersTo]

end Field

/-! ### Fields by name -/

section apart

variable {fields : List (Field α)}

theorem find?_of_apart (h : fields.Pairwise Field.Apart) {f : Field α}
    (hf : f ∈ fields) :
    fields.find? (·.answersTo f.name) = some f := by
  induction fields with
  | nil => cases hf
  | cons g rest ih =>
    obtain ⟨hg, hrest⟩ := List.pairwise_cons.1 h
    rcases List.mem_cons.1 hf with rfl | hf
    · exact List.find?_cons_of_pos f.answersTo_name
    · rw [List.find?_cons_of_neg
        (by rw [(hg f hf).name]; exact Bool.false_ne_true), ih hrest hf]

theorem nodup_names_of_apart (h : fields.Pairwise Field.Apart) :
    (fields.map (·.name)).Nodup := by
  refine List.pairwise_map.2 (h.imp fun {f g} hfg heq => ?_)
  have hname := hfg.name
  rw [← heq, f.answersTo_name] at hname
  cases hname

end apart

/-- Enters a part at the field that a key names. -/
def enterAt (fields : List (Field α)) (draft : α) (entry : String × Source) :
    Decoded α :=
  match fields.find? (·.answersTo entry.1) with
  | some f => f.enter entry.2 draft
  | none => .ok draft

section enterAt

variable {fields : List (Field α)}

theorem enterAt_of_apart (h : fields.Pairwise Field.Apart) {f : Field α}
    (hf : f ∈ fields) (draft : α) (s : Source) :
    enterAt fields draft (f.name, s) = f.enter s draft := by
  rw [enterAt, find?_of_apart h hf]

/-- Entries of different fields can change places. -/
theorem interchangeable_of_apart (h : fields.Pairwise Field.Apart)
    {keys : List String} (hkeys : keys.Sublist (fields.map (·.name)))
    {entries : List (String × Source)} (hentries : entries.map (·.1) = keys) :
    entries.Pairwise (Interchangeable (enterAt fields)) := by
  have hnames : (fields.map (·.name)).Pairwise fun a b =>
      ∀ s t, Interchangeable (enterAt fields) (a, s) (b, t) := by
    refine List.pairwise_map.2
      (h.imp_of_mem fun {f g} hf hg hfg s t draft x => ?_)
    simp only [enterAt_of_apart h hf, enterAt_of_apart h hg]
    exact hfg.interchange s t draft x
  have hpairs := hnames.sublist hkeys
  rw [← hentries] at hpairs
  exact (List.pairwise_map.1 hpairs).imp fun hab => hab _ _

/-- Entries of different fields are entered one after the other. -/
theorem enterEntries_eq_ok {entries : List (String × Source)}
    {seen : List String} {draft x : α}
    (hfields : ∀ e ∈ entries, ∃ f, fields.find? (·.answersTo e.1) = some f
      ∧ f.name = e.1)
    (hnodup : (entries.map (·.1)).Nodup) (hseen : ∀ e ∈ entries, e.1 ∉ seen)
    (h : entries.foldlM (enterAt fields) draft = .ok x) :
    enterEntries fields (entries.map fun e => (.string e.1, e.2)) seen draft
      = .ok ((entries.map (·.1)).reverse ++ seen, x) := by
  induction entries generalizing seen draft with
  | nil =>
    cases h
    rfl
  | cons e rest ih =>
    obtain ⟨hfield, hfields⟩ := List.forall_mem_cons.1 hfields
    obtain ⟨hkey, hnodup⟩ := List.nodup_cons.1 hnodup
    obtain ⟨hfirst, hseen⟩ := List.forall_mem_cons.1 hseen
    obtain ⟨f, hfind, hname⟩ := hfield
    obtain ⟨draft', hdraft', h⟩ := exists_of_bind_eq_ok h
    have henter : f.enter e.2 draft = .ok draft' := by
      rwa [enterAt, hfind] at hdraft'
    have hat : fieldAt? fields (.string e.1) = .ok (some f) := by
      show Except.ok (fields.find? (·.answersTo e.1)) = _
      rw [hfind]
    -- the field is entered here for the first time, and not again by the rest
    have hfresh : ¬ seen.contains f.name = true := by
      rw [hname, List.contains_iff_mem]
      exact hfirst
    have hrest : ∀ other ∈ rest, other.1 ∉ f.name :: seen := by
      intro other hother hmem
      rcases List.mem_cons.1 hmem with heq | hmem
      · refine hkey (List.mem_map.2 ⟨other, hother, ?_⟩)
        rw [heq, hname]
      · exact hseen other hother hmem
    rw [List.map_cons, enterEntries, hat]
    show (if seen.contains f.name then .error (.duplicateField f.name)
      else f.enter e.2 draft >>= fun draft => enterEntries fields
        (rest.map fun e => (.string e.1, e.2)) (f.name :: seen) draft) = _
    rw [if_neg hfresh, henter]
    show enterEntries fields _ (f.name :: seen) draft' = _
    rw [ih hfields hnodup hrest h, hname, List.map_cons, List.reverse_cons,
      List.append_assoc, List.singleton_append]

end enterAt

/-! ## Writing a structure -/

/-- The entries, in the order of declaration, lead from the draft to `x`. What
is left out is left as it is in the draft. -/
inductive Enters : List (Field α) → List (Option (String × Json)) → α → α → Prop
  | nil {x : α} : Enters [] [] x x
  | written {f : Field α} {fields : List (Field α)} {v : Json}
    {entries : List (Option (String × Json))} {draft draft' x : α}
    (hread : ∀ s, v.Written s → f.enter s draft = .ok draft')
    (hrest : Enters fields entries draft' x) :
    Enters (f :: fields) (some (f.name, v) :: entries) draft x
  | omitted {f : Field α} {fields : List (Field α)}
    {entries : List (Option (String × Json))} {draft x : α}
    (hpresence : f.presence ≠ .required)
    (hrest : Enters fields entries draft x) :
    Enters (f :: fields) (none :: entries) draft x

namespace Enters

variable {fields rest : List (Field α)} {f : Field α} {name : String}
  {entries : List (Option (String × Json))} {draft x : α}

/-- The entries are written at names of fields, in order. -/
theorem sublist (h : Enters fields entries draft x) :
    (Fields.keys (entries.filterMap id)).Sublist (fields.map (·.name)) := by
  induction h with
  | nil => exact .slnil
  | written _ _ ih => exact ih.cons_cons _
  | omitted _ _ ih => exact ih.cons _

/-- A field that may not be left out is written. -/
theorem mem_of_required (h : Enters fields entries draft x) :
    ∀ f ∈ fields, f.presence = .required →
      f.name ∈ Fields.keys (entries.filterMap id) := by
  induction h with
  | nil => exact nofun
  | written _ _ ih =>
    exact List.forall_mem_cons.2
      ⟨fun _ => List.mem_cons_self,
        fun f hf hreq => List.mem_cons_of_mem _ (ih f hf hreq)⟩
  | omitted hpresence _ ih =>
    exact List.forall_mem_cons.2 ⟨fun hreq => absurd hreq hpresence, ih⟩

/-- Entered in the order of declaration the entries give `x`. -/
theorem foldlM {all : List (Field α)} (hall : all.Pairwise Field.Apart)
    (h : Enters fields entries draft x) (hmem : ∀ f ∈ fields, f ∈ all)
    {tree : Json → Source} (htree : ∀ v : Json, v.Written (tree v)) :
    ((entries.filterMap id).map fun e => (e.1, tree e.2)).foldlM (enterAt all)
      draft = .ok x := by
  induction h with
  | nil => rfl
  | written hread _ ih =>
    obtain ⟨hf, hrest⟩ := List.forall_mem_cons.1 hmem
    show (enterAt all _ (_, tree _) >>= fun draft => _) = _
    rw [enterAt_of_apart hall hf, hread _ (htree _)]
    exact ih hrest
  | omitted _ _ ih => exact ih (List.forall_mem_cons.1 hmem).2

/-! ### By the kind of the entry -/

theorem always {decode : Decoder β} {set : β → α → α} {v : Json} {b : β}
    (hf : f.Sets decode set) (hv : Reads decode v b)
    (h : Enters rest entries (set b draft) x) :
    Enters (f :: rest) (Entry.always f.name v :: entries) draft x := by
  refine written (fun s hs => ?_) h
  rw [hf]
  show (decode s).map _ = _
  rw [hv s hs]
  rfl

theorem present {decode : Decoder β} {set : Option β → α → α}
    {encode : β → Json} {b? : Option β} (hf : f.Sets (decodeOption decode) set)
    (hpresence : f.presence ≠ .required) (hblank : set none draft = draft)
    (hv : ∀ b, b? = some b → encode b ≠ .null ∧ Reads decode (encode b) b)
    (h : Enters rest entries (set b? draft) x) :
    Enters (f :: rest) (Entry.present f.name encode b? :: entries) draft x := by
  cases b? with
  | none =>
    rw [hblank] at h
    exact omitted hpresence h
  | some b => exact always hf (reads_option (hv b rfl).1 (hv b rfl).2) h

theorem text? {set : Option String → α → α} {s? : Option String}
    (hf : f.Sets (decodeOption decodeString) set)
    (hpresence : f.presence ≠ .required) (hblank : set none draft = draft)
    (h : Enters rest entries (set s? draft) x) :
    Enters (f :: rest) (Entry.text? f.name s? :: entries) draft x := by
  show Enters (f :: rest)
    (Entry.present f.name Json.string s? :: entries) draft x
  exact present hf hpresence hblank (fun s _ => ⟨nofun, reads_string s⟩) h

theorem flag {set : Bool → α → α} {b : Bool} (hf : f.Sets decodeBool set)
    (hpresence : f.presence ≠ .required) (hblank : set false draft = draft)
    (h : Enters rest entries (set b draft) x) :
    Enters (f :: rest) (Entry.flag f.name b :: entries) draft x := by
  cases b with
  | false =>
    rw [hblank] at h
    exact omitted hpresence h
  | true => exact always hf (reads_bool true) h

theorem list {decode : Decoder β} {set : List β → α → α}
    {encode : β → Json} {bs : List β} (hf : f.Sets (decodeList decode) set)
    (hpresence : f.presence ≠ .required) (hblank : set [] draft = draft)
    (hv : ∀ b ∈ bs, Reads decode (encode b) b)
    (h : Enters rest entries (set bs draft) x) :
    Enters (f :: rest) (Entry.list f.name encode bs :: entries) draft x := by
  cases bs with
  | nil =>
    rw [hblank] at h
    exact omitted hpresence h
  | cons b bs => exact always hf (reads_list hv) h

theorem openMap {set : Fields → α → α} {value : Fields}
    (hf : f.Sets decodeFields set) (hpresence : f.presence ≠ .required)
    (hblank : set [] draft = draft) (hv : Json.isSortedFields value = true)
    (h : Enters rest entries (set value draft) x) :
    Enters (f :: rest) (Entry.fields f.name value :: entries) draft x := by
  cases value with
  | nil =>
    rw [hblank] at h
    exact omitted hpresence h
  | cons entry value => exact always hf (reads_fields hv) h

end Enters

/-- A structure is read back from its entries, in whatever order they come. -/
theorem reads_record {name : String} {blank x : α} {fields : List (Field α)}
    {entries : List (Option (String × Json))}
    (hapart : fields.Pairwise Field.Apart) (h : Enters fields entries blank x) :
    Reads (decodeRecord name blank fields) (.record entries) x := by
  intro s hs
  have hnames := nodup_names_of_apart hapart
  obtain ⟨tree, sources, htree, hperm, rfl⟩ :=
    hs.exists_perm (hnames.sublist h.sublist)
  have hkeys :
      (sources.map (·.1)).Perm (Fields.keys (entries.filterMap id)) := by
    have hmap := hperm.map Prod.fst
    rwa [List.map_map] at hmap
  -- every entry is for a field of its own name
  have hdeclared : ∀ e ∈ sources, ∃ f, fields.find? (·.answersTo e.1) = some f
      ∧ f.name = e.1 := by
    intro e he
    have hkey := h.sublist.subset (hkeys.subset (List.mem_map_of_mem he))
    obtain ⟨f, hf, hname⟩ := List.mem_map.1 hkey
    rw [← hname]
    exact ⟨f, find?_of_apart hapart hf, rfl⟩
  -- in the order of declaration the entries give `x`, so they do in any other
  have hfold : sources.foldlM (enterAt fields) blank = .ok x := by
    refine (foldlM_eq_ok_iff_of_perm hperm.symm ?_).1
      (h.foldlM hapart (fun f hf => hf) htree)
    refine interchangeable_of_apart hapart h.sublist ?_
    rw [List.map_map]
    rfl
  have henter : enterEntries fields _ [] blank = .ok _ :=
    enterEntries_eq_ok hdeclared (hkeys.nodup_iff.2 (hnames.sublist h.sublist))
      (fun _ _ => List.not_mem_nil) hfold
  rw [decodeRecord, decodeEntries, henter]
  -- a required field is always written, so none is missing
  have hmissing : (fields.find? fun field => field.presence = .required
      && !((sources.map Prod.fst).reverse ++ []).contains field.name)
        = none := by
    refine List.find?_eq_none.2 fun f hf => ?_
    simp only [Bool.and_eq_true, decide_eq_true_eq, Bool.not_eq_true', not_and,
      Bool.not_eq_false]
    intro hrequired
    rw [List.contains_iff_mem, List.append_nil, List.mem_reverse]
    exact hkeys.symm.subset (h.mem_of_required f hf hrequired)
  show (match fields.find? fun field => field.presence = .required
      && !((sources.map Prod.fst).reverse ++ []).contains field.name with
    | some field => Except.error (DecodeError.missingField field.name)
    | none => .ok x) = _
  rw [hmissing]

/-! ## Reading a structure -/

section yields

variable {P : α → Prop} {fields : List (Field α)}

theorem keeps_enterEntries (hfields : ∀ f ∈ fields, f.Keeps P)
    {entries : Fields} (hentries : ∀ e ∈ entries, e.2.isSorted = true)
    {seen seen' : List String} {draft x : α} (hdraft : P draft)
    (h : enterEntries fields (Json.toSourceFields entries) seen draft
      = .ok (seen', x)) : P x := by
  induction entries generalizing seen draft with
  | nil =>
    cases h
    exact hdraft
  | cons e rest ih =>
    obtain ⟨hvalue, hentries⟩ := List.forall_mem_cons.1 hentries
    obtain ⟨f?, hf?, h⟩ := exists_of_bind_eq_ok h
    have hfind : fields.find? (·.answersTo e.1) = f? := Except.ok.inj hf?
    cases f? with
    | none =>
      obtain ⟨_, _, h⟩ := exists_of_bind_eq_ok h
      exact ih hentries hdraft h
    | some f =>
      have h' : (if seen.contains f.name then .error (.duplicateField f.name)
          else f.enter e.2.toSource draft >>= fun draft => enterEntries fields
            (Json.toSourceFields rest) (f.name :: seen) draft)
              = .ok (seen', x) := h
      split at h'
      · cases h'
      · obtain ⟨draft', hdraft', h'⟩ := exists_of_bind_eq_ok h'
        exact ih hentries
          (hfields f (List.mem_of_find?_eq_some hfind) e.2 hvalue draft draft'
            hdraft hdraft') h'

theorem keeps_enterItems (hfields : ∀ f ∈ fields, f.Keeps P) {items : List Json}
    (hitems : ∀ item ∈ items, item.isSorted = true) {shape : String}
    {index : Nat} {draft x : α} (hdraft : P draft)
    (h : enterItems shape index fields (Json.toSourceItems items) none draft
      = .ok x) : P x := by
  induction fields generalizing items index draft with
  | nil =>
    cases items with
    | nil =>
      cases h
      exact hdraft
    | cons item items => cases h
  | cons f fields ih =>
    obtain ⟨hf, hfields⟩ := List.forall_mem_cons.1 hfields
    cases items with
    | nil =>
      have hnil : ∀ item ∈ ([] : List Json), item.isSorted = true := nofun
      -- the list is at its end: only a field that may be left out lets it
      have h' : (if f.presence = .defaulted then
            enterItems shape (index + 1) fields
              (Json.toSourceItems []) none draft
          else .error (.invalidLength index shape)) = .ok x := h
      split at h'
      · exact ih hfields hnil hdraft h'
      · cases h'
    | cons item items =>
      obtain ⟨hitem, hitems⟩ := List.forall_mem_cons.1 hitems
      obtain ⟨draft', hdraft', h⟩ := exists_of_bind_eq_ok h
      exact ih hfields hitems (hf item hitem draft draft' hdraft hdraft') h

/-- What holds of the draft and is kept by every field holds of what is read. -/
theorem yields_record {name : String} {blank : α} (hblank : P blank)
    (hfields : ∀ f ∈ fields, f.Keeps P) :
    Yields (decodeRecord name blank fields) P := by
  intro v hv x hx
  cases v with
  | object entries =>
    obtain ⟨⟨seen, draft⟩, hdraft, h⟩ := exists_of_bind_eq_ok hx
    have hkept :=
      keeps_enterEntries hfields (Json.isSorted_of_mem hv) hblank hdraft
    have h' : (match fields.find? fun field => field.presence = .required
        && !seen.contains field.name with
      | some field => Except.error (DecodeError.missingField field.name)
      | none => .ok draft) = .ok x := h
    split at h'
    · cases h'
    · cases h'
      exact hkept
  | array items =>
    exact keeps_enterItems hfields (Json.isSortedItems_iff.1 hv) hblank hx
  | _ => cases hx

end yields

/-! ## Choices -/

section tagged

variable {alternatives : List (Alternative α)} {unknown : Json → α}

/-- The tag of an object is what it has at the only entry of that name. -/
theorem splitTag?_object (fields : Fields) :
    (Json.object fields).toSource.splitTag?
    = match fields.filter (·.1 == "type") with
      | [(_, tag)] =>
        some (tag.toSource, (Json.object (Fields.erase fields "type")).toSource)
      | _ => none := by
  -- in a source the entries are found by the tag as they are in the object
  have hfilter : ∀ (p : Source × Source → Bool) (q : String × Json → Bool),
      (∀ e : String × Json, p (.string e.1, e.2.toSource) = q e) →
      (Json.toSourceFields fields).filter p
        = Json.toSourceFields (fields.filter q) := by
    intro p q hpq
    rw [Json.toSourceFields_eq_map, List.filter_map, Json.toSourceFields_eq_map,
      show p ∘ (fun e : String × Json =>
        (Source.string e.1, e.2.toSource)) = q from funext hpq]
  have htag : ∀ e : String × Json,
      ((Source.string e.1).heldText? == some "type") = (e.1 == "type") :=
    fun e => by simp [Source.heldText?, Source.held]
  simp only [Json.toSource, Source.splitTag?]
  rw [hfilter (·.1.heldText? == some "type") (·.1 == "type") htag,
    hfilter (fun e => !(e.1.heldText? == some "type")) (·.1 != "type") fun e =>
      congrArg not (htag e)]
  generalize List.filter (fun e : String × Json => e.1 == "type") fields = tags
  rcases tags with _ | ⟨e, _ | ⟨e', rest⟩⟩ <;> rfl

/-- What is left beside the tag of a sorted value is the tree of a sorted
value. -/
theorem exists_of_splitTag? {v : Json} (hv : v.isSorted = true)
    {tag rest : Source} (h : v.toSource.splitTag? = some (tag, rest)) :
    ∃ w : Json, w.isSorted = true ∧ rest = w.toSource := by
  cases v with
  | object fields =>
    rw [splitTag?_object] at h
    split at h
    · cases h
      exact ⟨.object (Fields.erase fields "type"),
        Json.isSortedFields_filter hv _, rfl⟩
    · cases h
  | array items =>
    cases items with
    | nil => cases h
    | cons item items =>
      cases h
      exact ⟨.array items, Json.isSortedItems_iff.2 fun item hitem =>
        Json.isSortedItems_iff.1 hv item (List.mem_cons_of_mem _ hitem), rfl⟩
  | _ => cases h

theorem mem_of_alternative? {tag : Source} {alternative : Alternative α}
    (h : alternative? alternatives tag = some alternative) :
    alternative ∈ alternatives := by
  unfold alternative? at h
  split at h
  · exact List.mem_of_find?_eq_some h
  · obtain ⟨n, _, hn⟩ := Option.bind_eq_some_iff.1 h
    exact List.mem_of_getElem? hn

/-- What fits an alternative is read by it from what is left beside the tag. -/
theorem exists_of_tagged? {v : Json} (hv : v.isSorted = true) {x : α}
    (h : tagged? alternatives v.toSource = some x) :
    ∃ alternative ∈ alternatives,
      ∃ w : Json, w.isSorted = true
        ∧ alternative.decode w.toSource = .ok x := by
  obtain ⟨⟨tag, rest⟩, hsplit, h⟩ := Option.bind_eq_some_iff.1 h
  obtain ⟨alternative, halternative, h⟩ := Option.bind_eq_some_iff.1 h
  obtain ⟨held, hheld, h⟩ := Option.bind_eq_some_iff.1 h
  obtain ⟨w, hw, rfl⟩ := exists_of_splitTag? hv hsplit
  rw [Json.held_toSource] at hheld
  cases hheld
  refine ⟨alternative, mem_of_alternative? halternative, w, hw, ?_⟩
  cases hdecode : alternative.decode w.toSource with
  | error e =>
    rw [hdecode] at h
    cases h
  | ok y =>
    rw [hdecode] at h
    cases h
    rfl

theorem decodeTagged_toSource {v : Json} (hv : v.isSorted = true) :
    decodeTagged alternatives unknown v.toSource
      = .ok ((tagged? alternatives v.toSource).getD (unknown v)) := by
  rw [decodeTagged, Json.held_toSource]
  cases tagged? alternatives v.toSource with
  | some x => rfl
  | none =>
    show (decodeJson v.toSource).map unknown = _
    rw [Json.decodeJson_toSource hv]
    rfl

/-- A value is read as an alternative, or as itself. -/
theorem cases_of_decodeTagged {P : α → Prop}
    (halternatives : ∀ alternative ∈ alternatives, Yields alternative.decode P)
    {v : Json} (hv : v.isSorted = true) {x : α}
    (h : decodeTagged alternatives unknown v.toSource = .ok x) :
    P x ∨ x = unknown v := by
  rw [decodeTagged_toSource hv] at h
  cases htagged : tagged? alternatives v.toSource with
  | none =>
    rw [htagged] at h
    exact .inr (Except.ok.inj h).symm
  | some y =>
    rw [htagged] at h
    cases h
    obtain ⟨alternative, hmem, w, hw, hx⟩ := exists_of_tagged? hv htagged
    exact .inl (halternatives alternative hmem w hw _ hx)

/-- The value is read, and if it is not recognized, it is written as it was. -/
def Tolerates (decode : Decoder α) (encode : α → Json) (unknown : Json → α)
    (v : Json) : Prop :=
  ∃ x, decode v.toSource = .ok x ∧ ∀ raw, x = unknown raw → encode x = v

/-- How a choice is written: what is read as an alternative is recognized and
read back, and what is not recognized is written as it was. -/
structure WrittenChoice (alternatives : List (Alternative α))
    (unknown : Json → α) (raw? : α → Option Json)
    (encode : α → Json) : Prop where
  known : ∀ alternative ∈ alternatives, Yields alternative.decode fun x =>
    raw? x = none ∧ ReadBack (decodeTagged alternatives unknown) encode x
  raw : ∀ raw, raw? (unknown raw) = some raw
  encode : ∀ raw, encode (unknown raw) = raw

section WrittenChoice

variable {raw? : α → Option Json} {encode : α → Json}
  (h : WrittenChoice alternatives unknown raw? encode)

include h

theorem WrittenChoice.yields_readBack :
    Yields (decodeTagged alternatives unknown)
      (ReadBack (decodeTagged alternatives unknown) encode) := by
  intro v hv x hx
  rcases cases_of_decodeTagged h.known hv hx with hknown | rfl
  · exact hknown.2
  · rw [ReadBack, h.encode]
    exact reads_of_isSorted hv hx

theorem WrittenChoice.tolerates {v : Json} (hv : v.isSorted = true) :
    Tolerates (decodeTagged alternatives unknown) encode unknown v := by
  refine ⟨_, decodeTagged_toSource hv, fun raw heq => ?_⟩
  rcases cases_of_decodeTagged h.known hv (decodeTagged_toSource hv)
    with hknown | hunknown
  · have hraw := hknown.1
    rw [heq, h.raw] at hraw
    cases hraw
  · rw [hunknown, h.encode]

end WrittenChoice

/-- A choice is read back by its tag. -/
theorem reads_tagged {tag : String} {alternative : Alternative α}
    {entries : Fields} {x : α}
    (htag : alternatives.find? (·.tags.contains tag) = some alternative)
    (hnone : "type" ∉ Fields.keys entries)
    (h : Reads alternative.decode (.object entries) x) :
    Reads (decodeTagged alternatives unknown)
      (.object (("type", .string tag) :: entries)) x := by
  -- the tag may stand at any place among the entries
  have hread : ∀ {fields w : Fields}, fields.filter (·.1 == "type")
      = [("type", .string tag)] →
      Fields.erase fields "type" = w →
        alternative.decode (Json.object w).toSource = .ok x →
      decodeTagged alternatives unknown (Json.object fields).toSource
        = .ok x := by
    rintro fields w htype rfl hx
    have hsplit := splitTag?_object fields
    rw [htype] at hsplit
    have halternative : alternative? alternatives (Json.string tag).toSource
        = some alternative :=
      htag
    have htagged : tagged? alternatives (Json.object fields).toSource
        = some x := by
      simp only [tagged?, hsplit, Option.bind_eq_bind,
        Option.bind_some, halternative, Json.held_toSource, Except.toOption, hx]
    rw [decodeTagged, Json.held_toSource, htagged]
    rfl
  rintro s (rfl | rfl)
  · -- as written, with the tag in front
    have hkey : "type" ∉ Fields.keys ([] ++ entries) := hnone
    obtain ⟨hfilter, herase⟩ := Fields.partition_append hkey
    exact hread hfilter herase (h _ (.toSource _))
  · -- sorted by keys, with the tag among the entries
    have hkey : "type" ∉ Fields.keys (Json.sortKeysOfFields entries) :=
      mt Json.keys_sortKeysOfFields.1 hnone
    obtain ⟨before, after, heq, hinsert⟩ :=
      Fields.exists_of_insert hkey (.string tag)
    rw [heq] at hkey
    obtain ⟨hfilter, herase⟩ := Fields.partition_append hkey
    rw [← hinsert] at hfilter herase
    exact hread hfilter (herase.trans heq.symm) (h _ (.sorted _))

/-- An alternative that is a structure is read back from its entries, the tag
among them. -/
theorem reads_alternative {tag name : String} {alternative : Alternative α}
    {fields : List (Field β)} {entries : List (Option (String × Json))}
    {blank y : β} {x : α}
    (htag : alternatives.find? (·.tags.contains tag) = some alternative)
    (hdecode : Reads (decodeRecord name blank fields) (.record entries) y →
      Reads alternative.decode (.record entries) x)
    (hapart : fields.Pairwise Field.Apart)
    (hname : "type" ∉ fields.map (·.name)) (h : Enters fields entries blank y) :
    Reads (decodeTagged alternatives unknown)
      (.record (Entry.always "type" (.string tag) :: entries)) x :=
  reads_tagged htag (fun hkey => hname (h.sublist.subset hkey))
    (hdecode (reads_record hapart h))

/-- An alternative with one field is recognized and read back, if what the field
holds is. -/
theorem yields_single (tag : String) {name : String} {tags : List String}
    {f : Field α} {decode : Decoder β} {write : β → Json} {make : β → α}
    {blank : β} {raw? : α → Option Json} {encode : α → Json}
    (hf : f.Sets decode fun b _ => make b) (hname : f.name ≠ "type")
    (htag : alternatives.find? (·.tags.contains tag)
      = some ⟨tags, decodeRecord name (make blank) [f]⟩)
    (hraw : ∀ b, raw? (make b) = none)
    (hencode : ∀ b, encode (make b)
      = .record [Entry.always "type" (.string tag),
        Entry.always f.name (write b)])
    (hblank : ReadBack decode write blank)
    (hyields : Yields decode (ReadBack decode write)) :
    Yields (decodeRecord name (make blank) [f]) fun x =>
      raw? x = none
        ∧ ReadBack (decodeTagged alternatives unknown) encode x := by
  have hread : ∀ b, ReadBack decode write b →
      ReadBack (decodeTagged alternatives unknown) encode (make b) := by
    intro b hb
    rw [ReadBack, hencode]
    refine reads_alternative htag id (List.pairwise_singleton _ _) ?_
      (.always hf hb .nil)
    simpa using hname.symm
  refine yields_record ⟨hraw blank, hread blank hblank⟩
    (List.forall_mem_singleton.2 ?_)
  exact .of_sets hf hyields fun b _ hb _ => ⟨hraw b, hread b hb⟩

/-- An alternative with one text is recognized and read back. -/
theorem yields_text (tag : String) {name : String}
    {tags : List String} {f : Field α} {make : String → α}
    {raw? : α → Option Json} {encode : α → Json}
    (hf : f.Sets decodeString fun s _ => make s) (hname : f.name ≠ "type")
    (htag : alternatives.find? (·.tags.contains tag)
      = some ⟨tags, decodeRecord name (make "") [f]⟩)
    (hraw : ∀ s, raw? (make s) = none)
    (hencode : ∀ s, encode (make s)
      = .record [Entry.always "type" (.string tag),
        Entry.always f.name (.string s)]) :
    Yields (decodeRecord name (make "") [f]) fun x =>
      raw? x = none ∧ ReadBack (decodeTagged alternatives unknown) encode x :=
  yields_single tag hf hname htag hraw hencode (reads_string "") fun _ _ s _ =>
    reads_string s

end tagged

end IntentGraph
