import IntentGraph.Document.Action
import IntentGraph.Document.Component
import IntentGraph.Proofs.Wire.Record

/-!
# Kinds and choices on the wire

Kinds, triggers, steps, data sources and children are read back from what they
are written as. A kind keeps the spelling that it could not place, and a choice
the whole value, so neither is taken for something known when it is read again
(`KindLookup`, `WrittenChoice`).
-/

namespace IntentGraph

/-! ## Kinds -/

/-- How kinds are looked up: under a spelling of the name, among those that are
allowed, each of which is found under its own name. What is not found keeps the
name. -/
structure KindLookup {κ : Type} (allowed : List κ) (name : κ → String)
    (unknown : String → κ) (spell : String → String)
    (ofName : String → κ) : Prop where
  lookup : ∀ s, ofName s = (allowed.find? (name · == spell s)).getD (unknown s)
  allowed : ∀ kind ∈ allowed, ofName (name kind) = kind
  unknown : ∀ s, name (unknown s) = s

namespace KindLookup

variable {κ : Type} {allowed : List κ} {name : κ → String}
  {unknown : String → κ} {spell : String → String} {ofName : String → κ}
  (h : KindLookup allowed name unknown spell ofName)

include h

theorem ofName_name (s : String) : ofName (name (ofName s)) = ofName s := by
  cases hfind : allowed.find? (name · == spell s) with
  | some kind =>
    have hkind : ofName s = kind := by rw [h.lookup, hfind, Option.getD_some]
    rw [hkind, h.allowed kind (List.mem_of_find?_eq_some hfind)]
  | none =>
    have hkind :
        ofName s = unknown s := by rw [h.lookup, hfind, Option.getD_none]
    rw [hkind, h.unknown, hkind]

theorem readBack (s : String) :
    ReadBack (fun source => (decodeString source).map ofName)
      (.string <| name ·) (ofName s) := by
  have hread := reads_map (f := ofName) (reads_string (name (ofName s)))
  rwa [h.ofName_name] at hread

theorem yields_readBack :
    Yields (fun source => (decodeString source).map ofName)
      (ReadBack (fun source => (decodeString source).map ofName)
        (.string <| name ·)) :=
  yields_map fun _ _ s _ => h.readBack s

end KindLookup

theorem ActionKind.kindLookup :
    KindLookup allowed name .unknown canonicalId ofName where
  lookup _ := rfl
  allowed := by decide +kernel
  unknown _ := rfl

theorem ComponentKind.kindLookup : KindLookup allowed name .unknown
    (fun s => String.ofList (Text.lowercase (Text.trim s.toList))) ofName where
  lookup _ := rfl
  allowed := by decide +kernel
  unknown _ := rfl

/-! ## Triggers -/

namespace Trigger

theorem readBack_componentEvent (component event : String) :
    ReadBack decode encode (.componentEvent component event) := by
  show Reads (decodeTagged alternatives .unknown)
    (.record [Entry.always "type" (.string "component_event"),
      Entry.always "componentId" (.string component),
      Entry.always "event" (.string event)]) _
  exact reads_alternative (y := (component, event)) rfl reads_map
    (by simp) (by decide)
    (.always rfl (reads_string component)
      (.always rfl (reads_string event) .nil))

theorem writtenChoice : WrittenChoice alternatives .unknown raw? encode where
  known := by
    refine List.forall_mem_cons.2 ⟨?_, List.forall_mem_cons.2 ⟨?_,
      List.forall_mem_cons.2 ⟨?_, List.forall_mem_singleton.2 ?_⟩⟩⟩
    · exact yields_text "lifecycle" rfl (by decide) rfl
        (fun _ => rfl) fun _ => rfl
    · exact yields_text "state_change" rfl (by decide) rfl
        (fun _ => rfl) fun _ => rfl
    · refine yields_map ((yields_true _).imp fun draft _ => ⟨rfl, ?_⟩)
      exact readBack_componentEvent draft.1 draft.2
    · exact yields_text "internal" rfl (by decide) rfl
        (fun _ => rfl) fun _ => rfl
  raw _ := rfl
  encode _ := rfl

/-- Triggers are written as a list, and read one by one. -/
theorem reads_many {ts : List Trigger}
    (h : ∀ t ∈ ts, ReadBack decode encode t) :
    Reads decodeMany (.ofList encode ts) ts := by
  intro s hs
  obtain ⟨sources, rfl, _⟩ := hs.exists_items
  obtain ⟨values, hvalues, heq⟩ := exists_of_bind_eq_ok (reads_list h _ hs)
  cases heq
  -- a list that is read is no single trigger
  have hmany : decodeOneOrMany (.list sources none) = .ok ts := by
    show (discard (Source.list sources none).held >>= fun _ =>
      sources.mapM decode) = _
    rw [hs.held]
    exact hvalues
  show ((decodeOneOrMany (.list sources none)).map some >>= fun ts? =>
    .ok (ts?.getD [])) = _
  rw [hmany]
  rfl

theorem decodeMany_of_ne_null {v : Json} (hv : v ≠ .null) :
    decodeMany v.toSource = decodeOneOrMany v.toSource := by
  have hoption : decodeOption decodeOneOrMany v.toSource
      = (decodeOneOrMany v.toSource).map some := by
    cases v <;> first | exact absurd rfl hv | rfl
  rw [decodeMany, hoption]
  cases decodeOneOrMany v.toSource <;> rfl

/-- Triggers are read from null, from a list, or from one of them. -/
theorem yields_many {P : Trigger → Prop} (h : Yields decode P) :
    Yields decodeMany fun ts => ∀ t ∈ ts, P t := by
  intro v hv ts hts
  have hone : ∀ {v : Json}, v.isSorted = true →
      (decode v.toSource >>= fun t => .ok [t]) = .ok ts →
      ∀ t ∈ ts, P t := by
    intro v hv hts
    obtain ⟨t, ht, heq⟩ := exists_of_bind_eq_ok hts
    cases heq
    exact List.forall_mem_singleton.2 (h v hv t ht)
  -- null gives none, a list gives each of its own, and anything else is one
  -- trigger
  by_cases hnull : v = .null
  · subst hnull
    cases hts
    exact nofun
  · rw [decodeMany_of_ne_null hnull] at hts
    obtain ⟨_, _, hts⟩ := exists_of_bind_eq_ok hts
    cases v with
    | array items =>
      have hitems : (Json.toSourceItems items).mapM decode = .ok ts := hts
      intro t ht
      rw [Json.toSourceItems_eq_map, mapM_eq_ok_iff,
        List.forall₂_map_left_iff] at hitems
      obtain ⟨item, hitem, hdecode⟩ := mem_right_of_forall₂ hitems ht
      exact h item (Json.isSortedItems_iff.1 hv item hitem) t hdecode
    | _ => exact hone hv hts

end Trigger

/-! ## Steps -/

namespace Step

theorem readBack_stateMutation {key : String} {value : Option Json}
    {source : Option String}
    (hvalue : ∀ v, value = some v → v ≠ .null ∧ v.isSorted = true) :
    ReadBack decode encode (.stateMutation key value source) := by
  show Reads (decodeTagged alternatives .unknown)
    (.record [Entry.always "type" (.string "state_mutation"),
      Entry.always "key" (.string key), Entry.present "value" id value,
      Entry.text? "from" source]) _
  exact reads_alternative (y := (key, value, source)) rfl reads_map (by simp)
    (by decide) <|
    .always rfl (reads_string key) <|
    .present rfl (by decide) rfl
      (fun v hv => ⟨(hvalue v hv).1, reads_json (hvalue v hv).2⟩) <|
    .text? rfl (by decide) rfl .nil

theorem readBack_integrationCall {capability : String} {params : Fields}
    (hparams : Json.isSortedFields params = true) :
    ReadBack decode encode (.integrationCall capability params) := by
  show Reads (decodeTagged alternatives .unknown)
    (.record [Entry.always "type" (.string "integration_call"),
      Entry.always "capability" (.string capability),
      Entry.fields "params" params]) _
  exact reads_alternative (y := (capability, params)) rfl reads_map
    (by simp) (by decide)
    (.always rfl (reads_string capability)
      (.openMap rfl (by decide) rfl hparams .nil))

/-- A value that is written by a step is not null. -/
theorem yields_writtenValue : Yields (decodeOption decodeJson) fun value =>
    ∀ v, value = some v → v ≠ .null ∧ v.isSorted = true := by
  refine yields_option fun v hv hnull w hw => ?_
  rw [Json.decodeJson_toSource hv] at hw
  cases hw
  exact ⟨hnull, hv⟩

theorem writtenChoice : WrittenChoice alternatives .unknown raw? encode where
  known := by
    refine List.forall_mem_cons.2 ⟨?_, List.forall_mem_cons.2 ⟨?_,
      List.forall_mem_cons.2 ⟨?_, List.forall_mem_singleton.2 ?_⟩⟩⟩
    · refine yields_map ((yields_record (P := fun draft =>
          ∀ v, draft.2.1 = some v → v ≠ .null ∧ v.isSorted = true)
        nofun ?_).imp fun draft hvalue => ⟨rfl, readBack_stateMutation hvalue⟩)
      refine List.forall_mem_cons.2
        ⟨?_, List.forall_mem_cons.2 ⟨?_, List.forall_mem_singleton.2 ?_⟩⟩
      · exact .of_sets rfl (yields_true _) fun _ _ _ h => h
      · exact .of_sets rfl yields_writtenValue fun _ _ h _ => h
      · exact .of_sets rfl (yields_true _) fun _ _ _ h => h
    · refine yields_map
        ((yields_record (P := fun draft => Json.isSortedFields draft.2 = true)
          rfl ?_).imp
          fun draft hparams => ⟨rfl, readBack_integrationCall hparams⟩)
      refine List.forall_mem_cons.2 ⟨?_, List.forall_mem_singleton.2 ?_⟩
      · exact .of_sets rfl (yields_true _) fun _ _ _ h => h
      · exact .of_sets rfl yields_fields fun _ _ h _ => h
    · exact yields_text "navigate" rfl (by decide) rfl
        (fun _ => rfl) fun _ => rfl
    · exact yields_text "emit" rfl (by decide) rfl (fun _ => rfl) fun _ => rfl
  raw _ := rfl
  encode _ := rfl

end Step

/-! ## Data sources -/

namespace DataSource

theorem readBack_derived (source : String) (expr : Option String) :
    ReadBack decode encode (.derived source expr) := by
  show Reads (decodeTagged alternatives .unknown)
    (.record [Entry.always "type" (.string "derived"),
      Entry.always "from" (.string source), Entry.text? "expr" expr]) _
  exact reads_alternative (y := (source, expr)) rfl reads_map
    (by simp) (by decide)
    (.always rfl (reads_string source) (.text? rfl (by decide) rfl .nil))

theorem writtenChoice : WrittenChoice alternatives .unknown raw? encode where
  known := by
    have hjson : Yields decodeJson (ReadBack decodeJson id) :=
      yields_json.imp fun _ => reads_json
    refine List.forall_mem_cons.2
      ⟨?_, List.forall_mem_cons.2 ⟨?_, List.forall_mem_singleton.2 ?_⟩⟩
    · exact yields_single "static" rfl (by decide) rfl (fun _ => rfl)
        (fun _ => rfl) (reads_json rfl) hjson
    · exact yields_text "state" rfl (by decide) rfl (fun _ => rfl) fun _ => rfl
    · refine yields_map ((yields_true _).imp fun draft _ => ?_)
      exact ⟨rfl, readBack_derived draft.1 draft.2⟩
  raw _ := rfl
  encode _ := rfl

theorem encode_ne_null {source : DataSource} (h : source.raw? = none) :
    source.encode ≠ .null := by
  cases source with
  | unknown raw => cases h
  | _ => exact nofun

/-- A source that was not null is not written as null, and is read back. -/
theorem readBack_of_decode {v : Json} (hv : v.isSorted = true)
    (hnull : v ≠ .null) {source : DataSource}
    (h : decode v.toSource = .ok source) :
    source.encode ≠ .null ∧ ReadBack decode encode source := by
  rcases cases_of_decodeTagged writtenChoice.known hv h with hknown | rfl
  · exact ⟨encode_ne_null hknown.1, hknown.2⟩
  · exact ⟨hnull, reads_of_isSorted hv h⟩

end DataSource

/-! ## Children -/

namespace ChildRef

/-- A child is the id that a text is, or else the value. -/
theorem yields_readBack : Yields decode (ReadBack decode encode) := by
  intro v hv child hchild
  have hencode : child.encode = v := by
    obtain ⟨held, hheld, h⟩ := exists_of_bind_eq_ok hchild
    rw [Json.held_toSource] at hheld
    cases hheld
    cases v with
    | string id =>
      cases h
      rfl
    | _ =>
      obtain ⟨w, hw, h⟩ := exists_of_bind_eq_ok h
      rw [Json.decodeJson_toSource hv] at hw
      cases hw
      cases h
      rfl
  rw [ReadBack, hencode]
  exact reads_of_isSorted hv hchild

end ChildRef

end IntentGraph
