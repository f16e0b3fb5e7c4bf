import Mathlib.Data.List.Nodup
import PeerRelay.Instance

/-!
# Targets without repetition

A store takes each URI of a list of targets once. A walk along the list does so that remembers the
URIs it has met (`unseen`), and what it keeps depends on them: behind some URIs it keeps what is
kept from nothing on, less what has one of them (`unseen_eq`). Leaving out peers of one URI and
taking each URI once can be done in either order (`distinctByUri_filter`), so that a list is worked
off behind another one in the same way (`distinctByUri_append`).

An instance is kept if and only if it is the first one of its URI (`mem_distinctByUri_iff`). No URI
gets lost, none is left twice, and a list that repeats none stays as it is
(`distinctByUri_eq_self_iff`).
-/

namespace PeerRelay.Store

variable {l : List Instance} {i : Instance} {uri : String}

/-! ### What is kept -/

theorem distinctByUri_ne_nil (h : l ≠ []) : distinctByUri l ≠ [] := by
  cases l with
  | nil => exact absurd rfl h
  | cons i rest => exact List.cons_ne_nil _ _

theorem distinctByUri_sublist (l : List Instance) : (distinctByUri l).Sublist l := by
  induction l with
  | nil => exact List.Sublist.slnil
  | cons i rest ih =>
    rw [distinctByUri]
    exact (List.filter_sublist.trans ih).cons_cons i

/-- The peers that are distinct have different URIs. -/
theorem uris_distinctByUri_nodup (l : List Instance) : ((distinctByUri l).map (·.uri)).Nodup := by
  induction l with
  | nil => exact List.nodup_nil
  | cons i rest ih =>
    rw [distinctByUri, List.map_cons, List.nodup_cons]
    refine ⟨?_, ih.sublist (List.filter_sublist.map _)⟩
    rintro hmem
    obtain ⟨j, hj, hij⟩ := List.mem_map.1 hmem
    simp [hij] at hj

/-- An instance is kept if it is the first one of its URI. -/
theorem mem_distinctByUri_iff : i ∈ distinctByUri l ↔ l.find? (·.uri == i.uri) = some i := by
  induction l with
  | nil => simp [distinctByUri]
  | cons k rest ih =>
    rw [distinctByUri, List.mem_cons, List.mem_filter, ih]
    by_cases hk : k.uri = i.uri
    · rw [List.find?_cons_of_pos (by simpa using hk)]
      simp [hk, eq_comm]
    · have hne : i ≠ k := fun h ↦ hk (congrArg Instance.uri h.symm)
      rw [List.find?_cons_of_neg (by simpa using hk)]
      simp [hne, Ne.symm hk]

/-- The peers that are distinct have all the URIs, and no other ones. -/
theorem exists_mem_distinctByUri_iff :
    (∃ j ∈ distinctByUri l, j.uri = uri) ↔ ∃ i ∈ l, i.uri = uri := by
  constructor
  · rintro ⟨j, hj, huri⟩
    exact ⟨j, (distinctByUri_sublist l).subset hj, huri⟩
  · rintro ⟨i, hi, rfl⟩
    have hfound : (l.find? (·.uri == i.uri)).isSome :=
      List.find?_isSome.2 ⟨i, hi, beq_self_eq_true i.uri⟩
    obtain ⟨j, hj⟩ := Option.isSome_iff_exists.1 hfound
    have huri : j.uri = i.uri := by simpa using List.find?_some hj
    exact ⟨j, mem_distinctByUri_iff.2 (huri ▸ hj), huri⟩

/-- Nothing is left out of a list without repeated URIs. -/
theorem distinctByUri_eq_self (h : (l.map (·.uri)).Nodup) : distinctByUri l = l := by
  induction l with
  | nil => rfl
  | cons i rest ih =>
    obtain ⟨hi, hrest⟩ := List.nodup_cons.1 h
    rw [distinctByUri, ih hrest, List.filter_eq_self.2 fun j hj ↦ ?_]
    rw [bne_iff_ne]
    exact fun huri ↦ hi (List.mem_map.2 ⟨j, hj, huri⟩)

theorem distinctByUri_eq_self_iff : distinctByUri l = l ↔ (l.map (·.uri)).Nodup :=
  ⟨fun h ↦ h ▸ uris_distinctByUri_nodup l, distinctByUri_eq_self⟩

/-! ### Lists behind each other -/

theorem distinctByUri_filter (p : String → Bool) (l : List Instance) :
    distinctByUri (l.filter fun i ↦ p i.uri) = (distinctByUri l).filter fun i ↦ p i.uri := by
  induction l with
  | nil => rfl
  | cons i rest ih =>
    cases hp : p i.uri with
    | true => simp [hp, distinctByUri, ih, List.filter_filter, Bool.and_comm]
    | false =>
      rw [List.filter_cons_of_neg (by simp [hp]), ih, distinctByUri,
        List.filter_cons_of_neg (by simp [hp]), List.filter_filter]
      -- what has another URI than `i` was not asked for, since `i` was not
      refine List.filter_congr fun j _ ↦ ?_
      by_cases huri : j.uri = i.uri <;> simp [huri, hp]

/-- The peers that are distinct are the first ones of their URIs. -/
theorem distinctByUri_eq_eraseDupsBy (l : List Instance) :
    distinctByUri l = l.eraseDupsBy fun i j ↦ i.uri == j.uri := by
  match l with
  | [] => rfl
  | i :: rest =>
    rw [List.eraseDupsBy_cons, distinctByUri, ← distinctByUri_filter (· != i.uri)]
    have hrest : (rest.filter fun j ↦ decide ((j.uri == i.uri) = false)) =
        rest.filter fun j ↦ j.uri != i.uri := by
      refine List.filter_congr fun j _ ↦ ?_
      by_cases huri : j.uri = i.uri <;> simp [huri]
    rw [hrest, distinctByUri_eq_eraseDupsBy (rest.filter fun j ↦ j.uri != i.uri)]
termination_by l.length
decreasing_by exact Nat.lt_succ_of_le (List.length_filter_le _ _)

/-- The URIs that are left are those of the list, each where it comes first. -/
theorem uris_distinctByUri (l : List Instance) :
    (distinctByUri l).map (·.uri) = (l.map (·.uri)).eraseDups := by
  match l with
  | [] => rfl
  | i :: rest =>
    rw [distinctByUri, ← distinctByUri_filter (· != i.uri), List.map_cons, List.map_cons,
      List.eraseDups_cons, uris_distinctByUri (rest.filter fun j ↦ j.uri != i.uri),
      List.filter_map]
    rfl
termination_by l.length
decreasing_by exact Nat.lt_succ_of_le (List.length_filter_le _ _)

/-- Of a list behind another one the URIs are kept that the other one does not have. -/
theorem distinctByUri_append (xs ys : List Instance) :
    distinctByUri (xs ++ ys) =
      distinctByUri xs ++ (distinctByUri ys).filter fun j ↦ j.uri ∉ xs.map (·.uri) := by
  induction xs with
  | nil => simp [distinctByUri]
  | cons i rest ih =>
    rw [List.cons_append, distinctByUri, ih, distinctByUri, List.filter_append,
      List.filter_filter, List.cons_append]
    congr 2
    refine List.filter_congr fun j _ ↦ ?_
    by_cases huri : j.uri = i.uri <;> simp [huri]

/-! ### The walk along a list -/

/-- What a walk along a list keeps: each instance whose URI was not met before. -/
def unseen (seen : List String) : List Instance → List Instance
  | [] => []
  | i :: rest =>
    if i.uri ∈ seen then unseen seen rest else i :: unseen (i.uri :: seen) rest

/-- What was met before the walk began is left out of what the walk keeps otherwise. -/
theorem unseen_eq (seen : List String) (l : List Instance) :
    unseen seen l = (distinctByUri l).filter fun i ↦ i.uri ∉ seen := by
  induction l generalizing seen with
  | nil => rfl
  | cons i rest ih =>
    rw [unseen, distinctByUri]
    split
    · rename_i hseen
      rw [List.filter_cons_of_neg (by simpa using hseen), List.filter_filter, ih]
      -- what was not met before has another URI than `i`, which was
      refine List.filter_congr fun j _ ↦ ?_
      by_cases huri : j.uri = i.uri <;> simp [huri, hseen]
    · rename_i hnew
      rw [List.filter_cons_of_pos (by simpa using hnew), List.filter_filter, ih]
      congr 1
      refine List.filter_congr fun j _ ↦ ?_
      by_cases huri : j.uri = i.uri <;> simp [huri]

theorem distinctByUri_eq_unseen (l : List Instance) : distinctByUri l = unseen [] l := by
  rw [unseen_eq]
  simp

/-- **Each URI is taken where it comes first.** The targets that are left are what a walk keeps that
remembers the URIs it has met. They have different URIs, which are all that there were; they come in
the order of the list, and each of them is the first instance of its URI there. Behind another list
that is left of a list which the other one has not got yet. Nothing is left out a second time. -/
theorem first_of_each_uri (xs ys : List Instance) :
    distinctByUri xs = unseen [] xs ∧
    ((distinctByUri xs).map (·.uri)).Nodup ∧
    (∀ uri, uri ∈ (distinctByUri xs).map (·.uri) ↔ uri ∈ xs.map (·.uri)) ∧
    (distinctByUri xs).Sublist xs ∧
    (∀ i, i ∈ distinctByUri xs ↔ xs.find? (·.uri == i.uri) = some i) ∧
    distinctByUri (xs ++ ys) =
      distinctByUri xs ++ (distinctByUri ys).filter (fun j ↦ j.uri ∉ xs.map (·.uri)) ∧
    distinctByUri (distinctByUri xs) = distinctByUri xs := by
  refine ⟨distinctByUri_eq_unseen xs, uris_distinctByUri_nodup xs, fun uri ↦ ?_,
    distinctByUri_sublist xs, fun i ↦ mem_distinctByUri_iff, distinctByUri_append xs ys,
    distinctByUri_eq_self (uris_distinctByUri_nodup xs)⟩
  rw [List.mem_map, List.mem_map]
  exact exists_mem_distinctByUri_iff

example : distinctByUri
    [⟨"a", "http://a"⟩, ⟨"b", "http://b"⟩, ⟨"again", "http://a"⟩, ⟨"c", "http://c"⟩] =
      [⟨"a", "http://a"⟩, ⟨"b", "http://b"⟩, ⟨"c", "http://c"⟩] := by decide

end PeerRelay.Store
