/-!
# Ordered maps and sets of texts

Maps with text keys and sets of texts, kept as strictly ascending lists. The order is that of
the code points, which is also the order of the UTF-8 bytes. Since the order belongs to the
type, two maps with the same entries are equal, and a listing is always sorted.

`TextMap.ofList` lets the last entry of a key win, `TextMap.alter` changes one key and leaves
every other as it was (`find?_alter`).
-/

namespace PeerRelay.Text

/-- Changes the value of `key` in an ascending list of entries, adding the key if absent. -/
def alterEntries {α : Type} (key : String) (f : Option α → α) :
    List (String × α) → List (String × α)
  | [] => [(key, f none)]
  | (k, v) :: rest =>
    if key < k then (key, f none) :: (k, v) :: rest
    else if key = k then (k, f (some v)) :: rest
    else (k, v) :: alterEntries key f rest

/-- The keys of a list of entries ascend strictly. -/
def Ascending {α : Type} (entries : List (String × α)) : Prop :=
  entries.Pairwise fun a b => a.1 < b.1

theorem key_of_mem_alterEntries {α : Type} {key : String} {f : Option α → α}
    {e : String × α} {entries : List (String × α)} (h : e ∈ alterEntries key f entries) :
    e.1 = key ∨ e ∈ entries := by
  induction entries with
  | nil => simp_all [alterEntries]
  | cons head rest ih =>
    obtain ⟨k, v⟩ := head
    rw [alterEntries] at h
    split at h
    · rcases List.mem_cons.1 h with rfl | h
      · exact .inl rfl
      · exact .inr h
    · split at h
      · rcases List.mem_cons.1 h with rfl | h
        · exact .inl (by simp_all)
        · exact .inr (List.mem_cons_of_mem _ h)
      · rcases List.mem_cons.1 h with rfl | h
        · exact .inr List.mem_cons_self
        · exact (ih h).imp_right (List.mem_cons_of_mem _)

/-- A text is below another if it is neither above it nor equal to it. -/
theorem lt_of_not_lt_of_ne {a b : String} (h : ¬ a < b) (hne : a ≠ b) : b < a := by
  by_cases hb : b < a
  · exact hb
  · exact absurd (String.le_antisymm (String.not_lt.1 hb) (String.not_lt.1 h)) hne

theorem Ascending.alterEntries {α : Type} {key : String} {f : Option α → α}
    {entries : List (String × α)} (h : Ascending entries) :
    Ascending (alterEntries key f entries) := by
  induction entries with
  | nil => simp [Text.alterEntries, Ascending]
  | cons head rest ih =>
    obtain ⟨k, v⟩ := head
    obtain ⟨below, rest_ascending⟩ := List.pairwise_cons.1 h
    rw [Text.alterEntries]
    split
    · rename_i hlt
      refine List.pairwise_cons.2 ⟨fun e he => ?_, h⟩
      rcases List.mem_cons.1 he with rfl | he
      · exact hlt
      · exact String.lt_trans hlt (below e he)
    · rename_i hlt
      split
      · exact List.pairwise_cons.2 ⟨below, rest_ascending⟩
      · rename_i hne
        refine List.pairwise_cons.2 ⟨fun e he => ?_, ih rest_ascending⟩
        rcases key_of_mem_alterEntries he with he | he
        · exact he ▸ lt_of_not_lt_of_ne hlt hne
        · exact below _ he

/-- A map with text keys in ascending order. -/
structure TextMap (α : Type) where
  entries : List (String × α)
  ascending : Ascending entries
deriving DecidableEq

namespace TextMap

variable {α : Type}

/-- The map without entries. -/
def empty : TextMap α := ⟨[], List.Pairwise.nil⟩

instance : EmptyCollection (TextMap α) := ⟨empty⟩

instance : Inhabited (TextMap α) := ⟨empty⟩

/-- Changes the value of one key; the function is given the present value. -/
def alter (m : TextMap α) (key : String) (f : Option α → α) : TextMap α :=
  ⟨alterEntries key f m.entries, m.ascending.alterEntries⟩

/-- Sets the value of a key. -/
def insert (m : TextMap α) (key : String) (value : α) : TextMap α :=
  m.alter key fun _ => value

/-- The value of a key. -/
def find? (m : TextMap α) (key : String) : Option α :=
  m.entries.lookup key

/-- Whether the key has a value. -/
def contains (m : TextMap α) (key : String) : Bool :=
  (m.find? key).isSome

/-- The keys in ascending order. -/
def keys (m : TextMap α) : List String :=
  m.entries.map (·.1)

/-- The map of a list of entries; the last entry of a key counts. -/
def ofList (entries : List (String × α)) : TextMap α :=
  entries.foldl (fun m e => m.insert e.1 e.2) empty

end TextMap

/-- A set of texts, listed in ascending order. -/
abbrev TextSet := TextMap Unit

namespace TextSet

/-- The members in ascending order. -/
def toList (s : TextSet) : List String :=
  s.keys

/-- The set of the members of a list. -/
def ofList (members : List String) : TextSet :=
  TextMap.ofList (members.map (·, ()))

/-- Whether the set has no member. -/
def isEmpty (s : TextSet) : Bool :=
  s.entries.isEmpty

end TextSet

end PeerRelay.Text
