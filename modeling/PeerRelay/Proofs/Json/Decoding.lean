import PeerRelay.Proofs.Json.Documents
import PeerRelay.Proofs.Text.Ordered

/-!
# Decoding what was written

The decoders on the trees of documents: texts, lists and maps are decoded to what was written. A
record is decoded from an object field by field (`Record.fillFields_cons`), as long as each field
has a slot of its own; it is done when no slot is left that may not be absent
(`Record.decode_object`).

A text need not be one that was written. What the defaults of a record have and every slot keeps,
the record has that is decoded from any text (`Record.decode_kept`): in whatever order its fields
come, with unknown ones among them, or as an array.
-/

namespace PeerRelay.Json

theorem text_tree (s : String) : text (Value.text s).tree = .ok s :=
  rfl

theorem text?_tree (s : String) : text? (Value.text s).tree = .ok (some s) :=
  rfl

theorem text?_ofText? (s? : Option String) : text? (Value.ofText? s?).tree = .ok s? := by
  cases s? with
  | none => rfl
  | some s => exact text?_tree s

/-- A natural number of 64 bits is kept exactly. -/
theorem Number.value_natCast {n : Nat} (h : n < limit) :
    value (ofInt (n : Int)) = .ok (.natural n) := by
  have hsign : decide ((n : Int) < 0) = false := decide_eq_false (by omega)
  rw [ofInt, hsign, Int.natAbs_natCast, value]
  dsimp only
  rw [Text.ofDigits_toDigits, if_pos h]

theorem natural_tree {n high : Nat} (expected : String) (hhigh : high < Number.limit)
    (h : n ≤ high) : natural high expected (Value.number n).tree = .ok n := by
  have hvalue : Number.value (Number.ofInt (n : Int)) = .ok (.natural n) :=
    Number.value_natCast (Nat.lt_of_le_of_lt h hhigh)
  rw [Value.tree, hvalue]
  exact if_pos h

/-- Where something else is expected, nothing is decoded. -/
theorem mismatch_ne_ok {α : Type} {expected : String} {t : Tree} {a : α} :
    mismatch expected t ≠ .ok a := by
  intro h
  obtain ⟨found, -, hthrow⟩ := bind_eq_ok.1 h
  cases hthrow

/-- A natural number is within the bound with which it is decoded. -/
theorem le_of_natural {m high : Nat} {expected : String} {t : Tree}
    (h : natural high expected t = .ok m) : m ≤ high := by
  unfold natural at h
  split at h
  case h_1 =>
    obtain ⟨number, -, h⟩ := bind_eq_ok.1 h
    cases number with
    | natural n =>
      dsimp only at h
      split at h
      case isTrue hle =>
        cases h
        exact hle
      case isFalse => cases h
    | negative n => cases h
    | real x => cases h
  case h_2 => exact absurd h mismatch_ne_ok

/-- A list is decoded item by item. -/
theorem list_tree {α : Type} {item : Decoder α} {items : List Value} {values : List α}
    (h : List.Forall₂ (fun v a ↦ item v.tree = .ok a) items values) :
    list item (Value.array items).tree = .ok values := by
  have hvalues : (treesOf items).mapM item = .ok values := by
    rw [treesOf_eq_map]
    exact mapM_eq_ok.2 (List.forall₂_map_left_iff.2 h)
  show (treesOf items).mapM item >>= (fun values ↦ closing none >>= fun _ ↦ pure values) = _
  rw [hvalues]
  rfl

theorem list_text (texts : List String) : list text (Value.ofTexts texts).tree = .ok texts :=
  list_tree (List.forall₂_map_left_iff.2 (List.forall₂_same.2 fun s _ ↦ text_tree s))

/-- A map is decoded entry by entry. -/
theorem textMap_tree {α : Type} {value : Decoder α} {document : α → Value}
    (h : ∀ a, value (document a).tree = .ok a) (m : Text.TextMap α) :
    textMap value (Value.object (m.entries.map fun (key, a) ↦ (key, document a))).tree = .ok m := by
  have hentries : ∀ entries : List (String × α),
      fieldsFrom value (fieldTreesOf (entries.map fun (key, a) ↦ (key, document a))) =
        .ok entries := by
    intro entries
    induction entries with
    | nil => rfl
    | cons entry entries ih =>
      obtain ⟨key, a⟩ := entry
      rw [List.map_cons, fieldTreesOf, fieldsFrom, h, ih]
      rfl
  show fieldsFrom value (fieldTreesOf _) >>=
    (fun entries ↦ closing none >>= fun _ ↦ pure (Text.TextMap.ofList entries)) = _
  rw [hentries]
  show Except.ok (Text.TextMap.ofList m.entries) = _
  rw [Text.TextMap.ofList_entries]

/-! ### Records -/

@[simp] theorem Slot.name_of {σ α : Type} (name : String) (absence : Absence) (value : Decoder α)
    (put : σ → α → σ) : (Slot.of name absence value put).name = name :=
  rfl

/-- What is put in place of a slot was decoded. -/
theorem Slot.exists_of_fill {σ α : Type} {name : String} {absence : Absence} {value : Decoder α}
    {put : σ → α → σ} {t : Tree} {s s' : σ}
    (h : (Slot.of name absence value put).fill t s = .ok s') :
    ∃ a, value t = .ok a ∧ put s a = s' :=
  map_eq_ok.1 h

/-- A slot is filled with the value that is decoded. -/
theorem Slot.fill_of {σ α : Type} {name : String} {absence : Absence} {value : Decoder α}
    {put : σ → α → σ} {t : Tree} {a : α} (h : value t = .ok a) (s : σ) :
    (Slot.of name absence value put).fill t s = .ok (put s a) := by
  show put s <$> value t = _
  rw [h]
  rfl

/-- Where no two slots share a name, a slot is found by its name. -/
theorem Slot.find?_name {σ : Type} {slots : List (Slot σ)} (hnames : (slots.map (·.name)).Nodup)
    {slot : Slot σ} (h : slot ∈ slots) : slots.find? (·.name == slot.name) = some slot := by
  induction slots with
  | nil => cases h
  | cons first slots ih =>
    obtain ⟨hfirst, hnames⟩ := List.nodup_cons.1 hnames
    rcases List.mem_cons.1 h with rfl | h
    · exact List.find?_cons_of_pos (by simp)
    · have hne : first.name ≠ slot.name := fun heq ↦
        hfirst (List.mem_map.2 ⟨slot, h, heq.symm⟩)
      rw [List.find?_cons_of_neg (by simpa using hne)]
      exact ih hnames h

namespace Record

variable {σ : Type} {r : Record σ} {seen : List String} {s : σ} {fields : List (String × Value)}

/-- A field whose name comes for the first time fills its slot. -/
theorem fillFields_cons {slot : Slot σ} {name : String} {value : Value} {s' : σ}
    (hslot : r.slots.find? (·.name == name) = some slot) (hnew : seen.contains name = false)
    (hfill : slot.fill value.tree s = .ok s') :
    r.fillFields seen s (fieldTreesOf ((name, value) :: fields)) =
      r.fillFields (name :: seen) s' (fieldTreesOf fields) := by
  have hname : (ofFault (.ok name) : Except Problem String) = .ok name := rfl
  rw [fieldTreesOf, fillFields, hname, ok_bind]
  simp only [hslot, hnew, hfill]
  rfl

/-! What every slot keeps holds of all that is decoded, whatever the text was. -/

section Kept

variable {kept : σ → Prop}
  (hfill : ∀ slot ∈ r.slots, ∀ t s s', kept s → slot.fill t s = .ok s' → kept s')

include hfill

theorem fillFields_kept {fields : List Field} {seen' : List String} {s' : σ} (hs : kept s)
    (h : r.fillFields seen s fields = .ok (seen', s')) : kept s' := by
  induction fields generalizing seen s with
  | nil =>
    cases h
    exact hs
  | cons field fields ih =>
    obtain ⟨name?, t⟩ := field
    rw [fillFields] at h
    obtain ⟨name, -, h⟩ := bind_eq_ok.1 h
    cases hslot : r.slots.find? (·.name == name) with
    | none =>
      -- the value of an unknown field is skipped
      rw [hslot] at h
      obtain ⟨-, -, h⟩ := bind_eq_ok.1 h
      exact ih hs h
    | some slot =>
      rw [hslot] at h
      dsimp only at h
      split at h
      case isTrue => cases h
      case isFalse =>
        obtain ⟨s₁, hs₁, h⟩ := bind_eq_ok.1 h
        exact ih (hfill slot (List.mem_of_find?_eq_some hslot) t s s₁ hs hs₁) h

theorem fillItems_kept {breach : Option Breach} {slots : List (Slot σ)} {items : List Tree}
    {index : Nat} {s' : σ} (hslots : slots ⊆ r.slots) (hs : kept s)
    (h : r.fillItems breach index s slots items = .ok s') : kept s' := by
  induction slots generalizing index s items with
  | nil =>
    cases items with
    | nil =>
      obtain ⟨-, -, h⟩ := bind_eq_ok.1 h
      cases h
      exact hs
    | cons t items => cases h
  | cons slot slots ih =>
    have hrest : slots ⊆ r.slots := fun s hs ↦ hslots (List.mem_cons_of_mem _ hs)
    cases items with
    | nil =>
      obtain ⟨-, -, h⟩ := bind_eq_ok.1 h
      split at h
      case isTrue => exact ih hrest hs h
      case isFalse => cases h
    | cons t items =>
      obtain ⟨s₁, hs₁, h⟩ := bind_eq_ok.1 h
      exact ih hrest (hfill slot (hslots List.mem_cons_self) t s s₁ hs hs₁) h

theorem decode_kept {t : Tree} (hblank : kept r.blank) (h : r.decode t = .ok s) : kept s := by
  unfold decode at h
  split at h
  case h_1 =>
    obtain ⟨⟨seen, s₁⟩, hs₁, h⟩ := bind_eq_ok.1 h
    obtain ⟨-, -, h⟩ := bind_eq_ok.1 h
    have hkept := fillFields_kept hfill hblank hs₁
    split at h
    case h_1 => cases h
    case h_2 =>
      cases h
      exact hkept
  case h_2 => exact fillItems_kept hfill (List.Subset.refl _) hblank h
  case h_3 => exact absurd h mismatch_ne_ok

end Kept

/-- An object is decoded if its fields fill every slot that may not be absent. -/
theorem decode_object (h : r.fillFields [] r.blank (fieldTreesOf fields) = .ok (seen, s))
    (hmissing : r.missing? seen = none) : r.decode (Value.object fields).tree = .ok s := by
  show r.fillFields [] r.blank (fieldTreesOf fields) >>= _ = _
  rw [h, ok_bind]
  dsimp only
  rw [hmissing]
  rfl

end Record

end PeerRelay.Json
