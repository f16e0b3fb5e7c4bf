import Mathlib.Data.List.Count
import Mathlib.Data.List.Sort
import PeerRelay.Text.Ordered

/-!
# Maps and sets of texts

The map of the entries of a map is the map again (`TextMap.ofList_entries`), since an entry above
all others goes to the end. Changing a key changes its value and no other (`TextMap.find?_alter`),
and an entry is the value of its key (`TextMap.mem_entries_iff`). So the listing of a set does not
depend on the order in which its members came (`TextSet.toList_ofList_perm`), and texts that are
counted are listed with the number of times that each occurs (`TextMap.entries_foldl_count`).
-/

namespace PeerRelay.Text

variable {α : Type}

theorem alterEntries_of_above {key : String} {f : Option α → α} {entries : List (String × α)}
    (h : ∀ e ∈ entries, e.1 < key) : alterEntries key f entries = entries ++ [(key, f none)] := by
  induction entries with
  | nil => rfl
  | cons head rest ih =>
    obtain ⟨k, v⟩ := head
    have hlt : k < key := h (k, v) List.mem_cons_self
    have hnot : ¬ key < k := fun habove ↦ String.lt_irrefl k (String.lt_trans hlt habove)
    have hne : key ≠ k := by
      rintro rfl
      exact String.lt_irrefl key hlt
    rw [alterEntries, if_neg hnot, if_neg hne, ih fun e he ↦ h e (List.mem_cons_of_mem _ he)]
    rfl

namespace TextMap

theorem entries_insert_of_above {m : TextMap α} {key : String} {value : α}
    (h : ∀ e ∈ m.entries, e.1 < key) : (m.insert key value).entries = m.entries ++ [(key, value)] :=
  alterEntries_of_above h

theorem ext_entries {m m' : TextMap α} (h : m.entries = m'.entries) : m = m' := by
  cases m
  cases m'
  cases h
  rfl

/-- Ascending entries go into a map below them one behind the other. -/
theorem foldl_insert {entries : List (String × α)} (h : Ascending entries) (m : TextMap α)
    (hbelow : ∀ e ∈ m.entries, ∀ e' ∈ entries, e.1 < e'.1) :
    (entries.foldl (fun m e ↦ m.insert e.1 e.2) m).entries = m.entries ++ entries := by
  induction entries generalizing m with
  | nil => rw [List.foldl_nil, List.append_nil]
  | cons head rest ih =>
    obtain ⟨hhead, hrest⟩ := List.pairwise_cons.1 h
    have hinsert : (m.insert head.1 head.2).entries = m.entries ++ [head] :=
      entries_insert_of_above fun e he ↦ hbelow e he head List.mem_cons_self
    rw [List.foldl_cons, ih hrest, hinsert, List.append_assoc, List.singleton_append]
    intro e he e' he'
    rw [hinsert] at he
    rcases List.mem_append.1 he with he | he
    · exact hbelow e he e' (List.mem_cons_of_mem _ he')
    · rw [List.mem_singleton.1 he]
      exact hhead e' he'

/-! ### Values -/

theorem lookup_cons_ite (k key : String) (v : α) (rest : List (String × α)) :
    ((key, v) :: rest).lookup k = if k = key then some v else rest.lookup k := by
  rw [List.lookup_cons]
  by_cases h : k = key
  · rw [if_pos h, beq_iff_eq.2 h]
  · rw [if_neg h, beq_eq_false_iff_ne.2 h]

theorem lookup_of_above {key : String} {entries : List (String × α)}
    (h : ∀ e ∈ entries, key < e.1) : entries.lookup key = none := by
  refine List.lookup_eq_none_iff.2 fun e he ↦ bne_iff_ne.2 ?_
  rintro rfl
  exact String.lt_irrefl _ (h e he)

theorem lookup_alterEntries {key k : String} {f : Option α → α} {entries : List (String × α)}
    (h : Ascending entries) : (alterEntries key f entries).lookup k =
      if k = key then some (f (entries.lookup key)) else entries.lookup k := by
  induction entries with
  | nil => exact lookup_cons_ite k key _ []
  | cons head rest ih =>
    obtain ⟨k', v⟩ := head
    obtain ⟨hbelow, hrest⟩ := List.pairwise_cons.1 h
    rw [alterEntries]
    split
    · rename_i hlt
      have habove : ∀ e ∈ (k', v) :: rest, key < e.1 := by
        intro e he
        rcases List.mem_cons.1 he with rfl | he
        · exact hlt
        · exact String.lt_trans hlt (hbelow e he)
      rw [lookup_cons_ite, lookup_of_above habove]
    · split
      · rename_i heq
        subst heq
        simp only [lookup_cons_ite, if_true]
        split <;> rfl
      · rename_i hne
        rw [lookup_cons_ite, ih hrest, lookup_cons_ite, lookup_cons_ite, if_neg hne]
        by_cases hk : k = k'
        · rw [if_pos hk, if_neg fun heq ↦ hne (heq.symm.trans hk), if_pos hk]
        · rw [if_neg hk, if_neg hk]

/-- Changing a key changes its value and no other. -/
theorem find?_alter (m : TextMap α) (key k : String) (f : Option α → α) :
    (m.alter key f).find? k = if k = key then some (f (m.find? key)) else m.find? k :=
  lookup_alterEntries m.ascending

/-- An entry is the value of its key. -/
theorem mem_entries_iff {m : TextMap α} {k : String} {v : α} :
    (k, v) ∈ m.entries ↔ m.find? k = some v := by
  obtain ⟨entries, h⟩ := m
  show (k, v) ∈ entries ↔ entries.lookup k = some v
  induction entries with
  | nil => simp
  | cons head rest ih =>
    obtain ⟨k', v'⟩ := head
    obtain ⟨hbelow, hrest⟩ := List.pairwise_cons.1 h
    rw [List.mem_cons, Prod.mk.injEq, lookup_cons_ite, ih hrest]
    split
    · rename_i heq
      subst heq
      simp [lookup_of_above hbelow, eq_comm]
    · rename_i hne
      simp [hne]

theorem mem_keys_iff {m : TextMap α} {k : String} : k ∈ m.keys ↔ (m.find? k).isSome := by
  rw [keys, List.mem_map, Option.isSome_iff_exists]
  constructor
  · rintro ⟨⟨_, v⟩, he, rfl⟩
    exact ⟨v, mem_entries_iff.1 he⟩
  · rintro ⟨v, hv⟩
    exact ⟨(k, v), mem_entries_iff.2 hv, rfl⟩

/-- Maps that have values for the same keys list the same keys. -/
theorem keys_eq_of_isSome {β : Type} {m : TextMap α} {m' : TextMap β}
    (h : ∀ k, (m.find? k).isSome = (m'.find? k).isSome) : m.keys = m'.keys := by
  have hantisymm : Std.Antisymm fun a b : String ↦ a < b :=
    ⟨fun _ _ hab hba ↦ absurd (String.lt_trans hab hba) (String.lt_irrefl _)⟩
  have hirrefl : Std.Irrefl fun a b : String ↦ a < b := ⟨String.lt_irrefl⟩
  have hmem : ∀ k, k ∈ m.keys ↔ k ∈ m'.keys := by
    intro k
    rw [mem_keys_iff, mem_keys_iff, h]
  exact List.Pairwise.eq_of_mem_iff (List.pairwise_map.2 m.ascending)
    (List.pairwise_map.2 m'.ascending) hmem

/-- A map whose values are a function of their keys. -/
theorem entries_eq_map_keys {m : TextMap α} {f : String → α}
    (h : ∀ k v, m.find? k = some v → v = f k) : m.entries = m.keys.map fun k ↦ (k, f k) := by
  rw [keys, List.map_map]
  refine (List.map_id _).symm.trans (List.map_congr_left fun e he ↦ ?_)
  exact Prod.ext rfl (h e.1 e.2 (mem_entries_iff.1 he))

/-! ### Maps from lists -/

theorem ofList_entries (m : TextMap α) : ofList m.entries = m :=
  ext_entries (foldl_insert m.ascending empty fun _ h ↦ absurd h List.not_mem_nil)

theorem find?_foldl_insert {entries : List (String × α)} (h : (entries.map (·.1)).Nodup)
    (m : TextMap α) (k : String) (v : α) :
    (entries.foldl (fun m e ↦ m.insert e.1 e.2) m).find? k = some v ↔
      (k, v) ∈ entries ∨ k ∉ entries.map (·.1) ∧ m.find? k = some v := by
  induction entries generalizing m with
  | nil => simp
  | cons head rest ih =>
    obtain ⟨k', v'⟩ := head
    obtain ⟨hhead, hrest⟩ := List.nodup_cons.1 h
    rw [List.foldl_cons, ih hrest, insert, find?_alter]
    by_cases hk : k = k'
    · subst hk
      have hnot : (k, v) ∉ rest := fun hmem ↦ hhead (List.mem_map_of_mem (f := (·.1)) hmem)
      rw [if_pos rfl, List.mem_cons]
      simp [hnot, hhead, eq_comm]
    · simp [hk]

/-- In a list without repeated keys every entry counts. -/
theorem find?_ofList_eq_some {entries : List (String × α)} (h : (entries.map (·.1)).Nodup)
    {k : String} {v : α} : (ofList entries).find? k = some v ↔ (k, v) ∈ entries :=
  (find?_foldl_insert h empty k v).trans (or_iff_left fun hempty ↦ nomatch hempty.2)

theorem entries_ofList_perm {entries : List (String × α)} (h : (entries.map (·.1)).Nodup) :
    (ofList entries).entries.Perm entries := by
  have hnodup : (ofList entries).entries.Nodup := by
    refine List.Pairwise.imp (fun {a b} hlt heq ↦ ?_) (ofList entries).ascending
    rw [heq] at hlt
    exact String.lt_irrefl _ hlt
  refine (List.perm_ext_iff_of_nodup hnodup (h.of_map _)).2 fun ⟨k, v⟩ ↦ ?_
  rw [mem_entries_iff, find?_ofList_eq_some h]

/-- A map is what is found in it. -/
theorem ext_find? {m m' : TextMap α} (h : ∀ k, m.find? k = m'.find? k) : m = m' := by
  have hantisymm : Std.Antisymm fun a b : String × α ↦ a.1 < b.1 :=
    ⟨fun _ _ hab hba ↦ absurd (String.lt_trans hab hba) (String.lt_irrefl _)⟩
  have hirrefl : Std.Irrefl fun a b : String × α ↦ a.1 < b.1 := ⟨fun _ ↦ String.lt_irrefl _⟩
  refine ext_entries (List.Pairwise.eq_of_mem_iff m.ascending m'.ascending fun ⟨k, v⟩ ↦ ?_)
  rw [mem_entries_iff, mem_entries_iff, h]

end TextMap

theorem TextSet.ofList_toList (s : TextSet) : TextSet.ofList s.toList = s := by
  have hentries : s.toList.map (·, ()) = s.entries := by
    rw [TextSet.toList, TextMap.keys, List.map_map]
    exact List.map_id _
  rw [TextSet.ofList, hentries, TextMap.ofList_entries]

namespace TextSet

theorem ext_toList {s s' : TextSet} (h : s.toList = s'.toList) : s = s' := by
  rw [← ofList_toList s, ← ofList_toList s', h]

theorem isEmpty_iff {s : TextSet} : s.isEmpty = true ↔ s.toList = [] := by
  rw [isEmpty, List.isEmpty_iff, toList, TextMap.keys, List.map_eq_nil_iff]

theorem find?_foldl_insert (l : List String) (s : TextSet) (k : String) :
    ((l.map (·, ())).foldl (fun m e ↦ m.insert e.1 e.2) s).find? k =
      if k ∈ l then some () else s.find? k := by
  induction l generalizing s with
  | nil => rfl
  | cons head rest ih =>
    rw [List.map_cons, List.foldl_cons, ih, TextMap.insert, TextMap.find?_alter]
    by_cases hrest : k ∈ rest
    · simp [hrest]
    · by_cases hk : k = head <;> simp [hrest, hk]

theorem find?_ofList (l : List String) (k : String) :
    (ofList l).find? k = if k ∈ l then some () else none :=
  find?_foldl_insert l ∅ k

/-- The members of the set of a list are those of the list. -/
theorem contains_ofList {l : List String} {k : String} : (ofList l).contains k = true ↔ k ∈ l := by
  rw [TextMap.contains, find?_ofList]
  split <;> simp_all

/-- The set of a list is empty if the list is. -/
theorem isEmpty_ofList {l : List String} : (ofList l).isEmpty = true ↔ l = [] := by
  cases l with
  | nil => exact iff_of_true rfl rfl
  | cons k l =>
    have hk : (ofList (k :: l)).find? k = some () := by
      rw [find?_ofList, if_pos List.mem_cons_self]
    have hentry : (k, ()) ∈ (ofList (k :: l)).entries := TextMap.mem_entries_iff.2 hk
    exact iff_of_false (fun hempty ↦ List.ne_nil_of_mem hentry (List.isEmpty_iff.1 hempty))
      (List.cons_ne_nil k l)

/-- The set of the texts in a list does not depend on their order. -/
theorem toList_ofList_perm {l l' : List String} (h : l.Perm l') :
    (ofList l).toList = (ofList l').toList := by
  refine TextMap.keys_eq_of_isSome fun k ↦ ?_
  simp only [find?_ofList, h.mem_iff]

end TextSet

namespace TextMap

theorem find?_foldl_count (l : List String) (m : TextMap Nat) (k : String) :
    (l.foldl (fun m k ↦ m.alter k (·.getD 0 + 1)) m).find? k =
      if k ∈ l then some ((m.find? k).getD 0 + l.count k) else m.find? k := by
  induction l generalizing m with
  | nil => rfl
  | cons head rest ih =>
    rw [List.foldl_cons, ih, find?_alter]
    by_cases hk : k = head
    · subst hk
      by_cases hrest : k ∈ rest
      · simp [hrest]
        omega
      · simp [hrest, List.count_eq_zero.2 hrest]
    · simp [hk, List.count_cons_of_ne (Ne.symm hk)]

/-- Counting the texts in a list gives for each of them the number of times that it occurs. -/
theorem entries_foldl_count (l : List String) :
    (l.foldl (fun m k ↦ m.alter k (·.getD 0 + 1)) (∅ : TextMap Nat)).entries =
      (TextSet.ofList l).toList.map fun k ↦ (k, l.count k) := by
  have hcount := find?_foldl_count l ∅
  rw [entries_eq_map_keys (f := (l.count ·))]
  · refine congrArg _ (keys_eq_of_isSome fun k ↦ ?_)
    rw [hcount, TextSet.find?_ofList]
    split <;> rfl
  · intro k v hv
    rw [hcount] at hv
    split at hv
    · rw [← Option.some.inj hv]
      exact Nat.zero_add _
    · cases hv

end TextMap

end PeerRelay.Text
