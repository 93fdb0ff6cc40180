import IntentGraph.Json.Basic
import IntentGraph.Proofs.Outcome
import IntentGraph.Proofs.Related
import IntentGraph.Proofs.Wire.Tree

/-!
# Reading and writing

Two facts about a decoder, from which round trips are put together. A value is
read as something (`Reads`) when each tree that it is written as is. A decoder
yields something (`Yields`) when what it gives on a sorted value always
satisfies it: this is how a part of a structure is known to be one that was
read. A type is read back from what it is written as when its decoder yields
what reads its own encoding.
-/

namespace IntentGraph

variable {α β : Type}

/-- Each tree that the value is written as decodes to `x`. -/
def Reads (decode : Decoder α) (v : Json) (x : α) : Prop :=
  ∀ s, v.Written s → decode s = .ok x

/-- `x` is read back from what it is written as. -/
def ReadBack (decode : Decoder α) (encode : α → Json) (x : α) : Prop :=
  Reads decode (encode x) x

/-- What the decoder gives on a sorted value satisfies `P`. -/
def Yields (decode : Decoder α) (P : α → Prop) : Prop :=
  ∀ v : Json, v.isSorted = true → ∀ x, decode v.toSource = .ok x → P x

theorem Yields.imp {decode : Decoder α} {P Q : α → Prop} (h : Yields decode P)
    (himp : ∀ x, P x → Q x) : Yields decode Q :=
  fun v hv x hx => himp x (h v hv x hx)

/-- A sorted value is written in one way, so it is read as it was read. -/
theorem reads_of_isSorted {decode : Decoder α} {v : Json} {x : α}
    (hv : v.isSorted = true) (h : decode v.toSource = .ok x) :
    Reads decode v x := by
  intro s hs
  rwa [hs.eq_of_isSorted hv]

theorem yields_true (decode : Decoder α) : Yields decode fun _ => True :=
  fun _ _ _ _ => trivial

/-! ## Scalars -/

theorem reads_string (s : String) : Reads decodeString (.string s) s := by
  rintro _ (rfl | rfl) <;> rfl

theorem reads_bool (b : Bool) : Reads decodeBool (.bool b) b := by
  rintro _ (rfl | rfl) <;> rfl

theorem reads_natural {name : String} {bits n : Nat} (h : n < Nat.pow 2 bits) :
    Reads (decodeNatural name bits) (.ofNat n) n := by
  have hwidth : (0 : Int) ≤ n ∧ (n : Int) < (Nat.pow 2 bits : Int) :=
    ⟨Int.natCast_nonneg n, by exact_mod_cast h⟩
  have hread : decodeNatural name bits (.number (.integer n)) = .ok n := by
    show (if (0 : Int) ≤ n ∧ (n : Int) < (Nat.pow 2 bits : Int) then Except.ok
      (n : Int).toNat
      else _) = _
    rw [if_pos hwidth, Int.toNat_natCast]
  rintro _ (rfl | rfl) <;> exact hread

theorem yields_natural (name : String) (bits : Nat) :
    Yields (decodeNatural name bits) (· < Nat.pow 2 bits) := by
  intro v _ n hn
  cases v with
  | number x =>
    cases x with
    | integer m =>
      have hm : (if 0 ≤ m ∧ m < (Nat.pow 2 bits : Int) then Except.ok m.toNat
          else .error (DecodeError.invalidValue (.number (.integer m)) name))
            = Except.ok n := hn
      split at hm
      · next hwidth =>
        cases hm
        exact (Int.toNat_lt hwidth.1).2 hwidth.2
      · cases hm
    | double x => cases hn
  | _ => cases hn

/-- A name of a closed set is read as what it names. -/
theorem reads_variant {variants : List (String × α)} {name : String} {x : α}
    (h : variants.lookup name = some x) :
    Reads (decodeVariant variants) (.string name) x := by
  have hread : decodeVariant variants (.string name) = .ok x := by
    rw [decodeVariant, lookupVariant, h]
  rintro _ (rfl | rfl) <;> exact hread

theorem reads_map {decode : Decoder α} {f : α → β} {v : Json} {x : α}
    (h : Reads decode v x) :
    Reads (fun s => (decode s).map f) v (f x) := by
  intro s hs
  show (decode s).map f = _
  rw [h s hs]
  rfl

theorem yields_map {decode : Decoder α} {f : α → β} {P : β → Prop}
    (h : Yields decode fun x => P (f x)) :
    Yields (fun s => (decode s).map f) P := by
  intro v hv y hy
  obtain ⟨x, hx, rfl⟩ := exists_of_map_eq_ok hy
  exact h v hv x hx

/-! ## Values and open maps -/

theorem reads_json {v : Json} (hv : v.isSorted = true) : Reads decodeJson v v :=
  reads_of_isSorted hv (Json.decodeJson_toSource hv)

theorem yields_json : Yields decodeJson (·.isSorted = true) := by
  intro v hv x hx
  rw [Json.decodeJson_toSource hv] at hx
  cases hx
  exact hv

theorem decodeFields_toSource {fields : Fields}
    (h : Json.isSortedFields fields = true) :
    decodeFields (Json.object fields).toSource = .ok fields := by
  rw [Json.toSource, decodeFields, Json.decodeJsonEntries_toSourceFields h]
  show Except.ok (Fields.ofList fields) = _
  rw [Fields.ofList_eq_self h]

theorem reads_fields {fields : Fields} (h : Json.isSortedFields fields = true) :
    Reads decodeFields (.object fields) fields :=
  reads_of_isSorted h (decodeFields_toSource h)

theorem yields_fields : Yields decodeFields (Json.isSortedFields · = true) := by
  intro v hv x hx
  cases v with
  | object fields =>
    rw [decodeFields_toSource hv] at hx
    cases hx
    exact hv
  | _ => cases hx

/-! ## Options -/

theorem reads_option {decode : Decoder α} {v : Json} {x : α} (hv : v ≠ .null)
    (h : Reads decode v x) : Reads (decodeOption decode) v (some x) := by
  intro s hs
  have hread := h s hs
  have hsome : decodeOption decode s = (decode s).map some := by
    rcases hs with rfl | rfl <;> cases v <;> first | exact absurd rfl hv | rfl
  rw [hsome, hread]
  rfl

theorem yields_option {decode : Decoder α} {P : α → Prop}
    (h : ∀ v : Json, v.isSorted = true → v ≠ .null → ∀ x, decode v.toSource
      = .ok x → P x) :
    Yields (decodeOption decode) fun x? => ∀ x, x? = some x → P x := by
  rintro v hv x? hx? x rfl
  have hread : ∀ {v : Json}, v ≠ .null →
      decodeOption decode v.toSource = (decode v.toSource).map some := by
    intro v hne
    cases v <;> first | exact absurd rfl hne | rfl
  by_cases hnull : v = .null
  · subst hnull
    cases hx?
  · rw [hread hnull] at hx?
    obtain ⟨y, hy, heq⟩ := exists_of_map_eq_ok hx?
    cases heq
    exact h v hv hnull x hy

/-! ## Lists -/

theorem reads_list {decode : Decoder α} {encode : α → Json} {xs : List α}
    (h : ∀ x ∈ xs, Reads decode (encode x) x) :
    Reads (decodeList decode) (.ofList encode xs) xs := by
  intro s hs
  obtain ⟨sources, rfl, hsources⟩ := hs.exists_items
  rw [List.forall₂_map_left_iff] at hsources
  have hread : sources.mapM decode = .ok xs := by
    rw [mapM_eq_ok_iff]
    clear hs
    induction hsources with
    | nil => exact .nil
    | cons hsource _ ih =>
      obtain ⟨hx, hxs⟩ := List.forall_mem_cons.1 h
      exact .cons (hx _ hsource) (ih hxs)
  rw [decodeList, hread]
  rfl

theorem exists_items_of_decodeList {decode : Decoder α} {v : Json} {xs : List α}
    (h : decodeList decode v.toSource = .ok xs) : ∃ items, v = .array items
      ∧ List.Forall₂ (fun item x => decode item.toSource = .ok x) items xs := by
  cases v with
  | array items =>
    obtain ⟨values, hvalues, hrest⟩ := exists_of_bind_eq_ok h
    cases hrest
    rw [Json.toSourceItems_eq_map, mapM_eq_ok_iff,
      List.forall₂_map_left_iff] at hvalues
    exact ⟨items, rfl, hvalues⟩
  | _ => cases h

theorem yields_list {decode : Decoder α} {P : α → Prop} (h : Yields decode P) :
    Yields (decodeList decode) fun xs => ∀ x ∈ xs, P x := by
  intro v hv xs hxs x hx
  obtain ⟨items, rfl, hitems⟩ := exists_items_of_decodeList hxs
  obtain ⟨item, hitem, hdecode⟩ := mem_right_of_forall₂ hitems hx
  exact h item (Json.isSortedItems_iff.1 hv item hitem) x hdecode

end IntentGraph
