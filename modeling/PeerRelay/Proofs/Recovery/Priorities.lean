import Mathlib.Data.List.Basic
import PeerRelay.Recovery.Handlers

/-!
# Handlers in order of priority

A list of handlers has one stable ascending sort (`StablySorted.unique`). Sorting the list yields it
(`stablySorted_inOrder`), and so does inserting its handlers one after the other
(`StablySorted.insert`).

Halving finds the end of what satisfies a condition only if this stands in front of everything else
(`partitionPoint_append`). For the condition on priorities that an insertion asks for, this is what
a list in ascending order guarantees.
-/

namespace PeerRelay.Recovery

/-! ### Halving -/

section Halving

variable {α : Type} {p : α → Bool}

theorem partitionPoint_nil : partitionPoint p [] = 0 := by
  rw [partitionPoint]
  split
  · rfl
  · rename_i hsplit
    rw [List.drop_nil] at hsplit
    cases hsplit

/-- Halving goes on behind the item in the middle, or in front of it. -/
theorem partitionPoint_of_drop {l rest : List α} {middle : α}
    (h : l.drop (l.length / 2) = middle :: rest) :
    partitionPoint p l = if p middle then l.length / 2 + 1 + partitionPoint p rest
      else partitionPoint p (l.take (l.length / 2)) := by
  rw [partitionPoint]
  split
  · rename_i hnil
    rw [h] at hnil
    cases hnil
  · rename_i hsplit
    obtain ⟨rfl, rfl⟩ := List.cons.inj (h.symm.trans hsplit)
    rfl

/-- Halving finds where the items that satisfy a condition end, if all others stand behind them. -/
theorem partitionPoint_append {low high : List α} (hlow : ∀ a ∈ low, p a = true)
    (hhigh : ∀ a ∈ high, p a = false) : partitionPoint p (low ++ high) = low.length := by
  generalize hl : low ++ high = l
  -- what is searched next is again some of the lower items before some of the higher ones
  induction l using partitionPoint.induct p generalizing low high with
  | case1 l hnil =>
    have hempty : l = [] := by
      rw [List.drop_eq_nil_iff] at hnil
      exact List.length_eq_zero_iff.1 (by omega)
    rw [hempty, List.append_eq_nil_iff] at hl
    rw [hempty, hl.1, partitionPoint_nil, List.length_nil]
  | case2 l middle rest hsplit hmiddle ih =>
    have hhalves : low ++ high = l.take (l.length / 2) ++ middle :: rest := by
      rw [hl, ← hsplit, List.take_append_drop]
    rw [partitionPoint_of_drop hsplit, if_pos hmiddle]
    -- the middle is a lower item, and so is all that stands in front of it
    obtain ⟨below, hbelow⟩ : ∃ below, low = l.take (l.length / 2) ++ middle :: below ∧
        rest = below ++ high := by
      rcases List.append_eq_append_iff.1 hhalves with ⟨above, -, rfl⟩ | ⟨below, hfront, hback⟩
      · exact absurd hmiddle (by simp [hhigh middle])
      · cases below with
        | nil => exact absurd hmiddle (by simp [hhigh middle, ← show _ = high from hback])
        | cons b below =>
          obtain ⟨rfl, hrest⟩ := List.cons.inj hback
          exact ⟨below, hfront, hrest⟩
    obtain ⟨rfl, rfl⟩ := hbelow
    rw [ih (fun a ha ↦ hlow a (by simp [ha])) hhigh rfl, List.length_append, List.length_take,
      List.length_cons]
    omega
  | case3 l middle rest hsplit hmiddle ih =>
    have hhalves : low ++ high = l.take (l.length / 2) ++ middle :: rest := by
      rw [hl, ← hsplit, List.take_append_drop]
    rw [partitionPoint_of_drop hsplit, if_neg hmiddle]
    -- the middle is a higher item, so that the lower ones all stand in front of it
    obtain ⟨above, hfront, hsub⟩ : ∃ above, l.take (l.length / 2) = low ++ above ∧
        ∀ a ∈ above, a ∈ high := by
      rcases List.append_eq_append_iff.1 hhalves with ⟨above, hfront, rfl⟩ | ⟨below, rfl, hback⟩
      · exact ⟨above, hfront, fun a ha ↦ by simp [ha]⟩
      · cases below with
        | nil => exact ⟨[], by simp, fun a ha ↦ absurd ha List.not_mem_nil⟩
        | cons b below =>
          obtain ⟨rfl, -⟩ := List.cons.inj hback
          exact absurd (hlow middle (by simp)) hmiddle
    exact ih hlow (fun a ha ↦ hhigh a (hsub a ha)) hfront.symm

end Halving

/-! ### Stable sorts -/

variable {σ : Type} {handlers sorted sorted' : List (Handler σ)} {h : Handler σ}

/-- The handlers of a list by ascending priorities, those of one priority in their given order. -/
structure StablySorted (handlers sorted : List (Handler σ)) : Prop where
  perm : sorted.Perm handlers
  ascending : sorted.Pairwise fun a b ↦ a.priority ≤ b.priority
  stable : ∀ priority : Int,
    sorted.filter (·.priority = priority) = handlers.filter (·.priority = priority)

namespace StablySorted

theorem nil : StablySorted ([] : List (Handler σ)) [] :=
  ⟨.nil, .nil, fun _ ↦ rfl⟩

theorem trans (hsorted : StablySorted handlers sorted) (hsorted' : StablySorted sorted sorted') :
    StablySorted handlers sorted' :=
  ⟨hsorted'.perm.trans hsorted.perm, hsorted'.ascending,
    fun priority ↦ (hsorted'.stable priority).trans (hsorted.stable priority)⟩

/-- Lists in ascending order are equal if they agree on each priority. -/
theorem eq_of_filter_eq (hascending : sorted.Pairwise fun a b ↦ a.priority ≤ b.priority)
    (hascending' : sorted'.Pairwise fun a b ↦ a.priority ≤ b.priority)
    (hsame : ∀ priority : Int,
      sorted.filter (·.priority = priority) = sorted'.filter (·.priority = priority)) :
    sorted = sorted' := by
  have hmem : ∀ a, a ∈ sorted ↔ a ∈ sorted' := fun a ↦ by
    simpa using congrArg (a ∈ ·) (hsame a.priority)
  induction sorted generalizing sorted' with
  | nil => exact (List.eq_nil_iff_forall_not_mem.2 fun a ha ↦ by simp [← hmem a] at ha).symm
  | cons a rest ih =>
    cases sorted' with
    | nil => exact absurd ((hmem a).1 List.mem_cons_self) List.not_mem_nil
    | cons a' rest' =>
      obtain ⟨hle, hrest⟩ := List.pairwise_cons.1 hascending
      obtain ⟨hle', hrest'⟩ := List.pairwise_cons.1 hascending'
      -- each head is in the other list, so neither has the higher priority
      have hpriority : a.priority = a'.priority := by
        have hfirst : a.priority ≤ a'.priority := by
          rcases List.mem_cons.1 ((hmem a').2 List.mem_cons_self) with rfl | hin
          · exact Int.le_refl _
          · exact hle a' hin
        have hfirst' : a'.priority ≤ a.priority := by
          rcases List.mem_cons.1 ((hmem a).1 List.mem_cons_self) with rfl | hin
          · exact Int.le_refl _
          · exact hle' a hin
        omega
      have hhead : a = a' := by
        have hheads := hsame a.priority
        rw [List.filter_cons_of_pos (by simp), List.filter_cons_of_pos (by simp [hpriority])]
          at hheads
        exact (List.cons.inj hheads).1
      subst hhead
      have htails : ∀ priority : Int,
          rest.filter (·.priority = priority) = rest'.filter (·.priority = priority) := by
        intro priority
        have hboth := hsame priority
        by_cases ha : a.priority = priority
        · rw [List.filter_cons_of_pos (by simp [ha]), List.filter_cons_of_pos (by simp [ha])]
            at hboth
          exact (List.cons.inj hboth).2
        · rwa [List.filter_cons_of_neg (by simp [ha]), List.filter_cons_of_neg (by simp [ha])]
            at hboth
      rw [ih hrest hrest' htails fun b ↦ by simpa using congrArg (b ∈ ·) (htails b.priority)]

/-- A list has one stable sort. -/
theorem unique (hsorted : StablySorted handlers sorted) (hsorted' : StablySorted handlers sorted') :
    sorted = sorted' :=
  eq_of_filter_eq hsorted.ascending hsorted'.ascending fun priority ↦
    (hsorted.stable priority).trans (hsorted'.stable priority).symm

end StablySorted

/-- Sorting handlers by priority is stable. -/
theorem stablySorted_inOrder (handlers : List (Handler σ)) :
    StablySorted handlers (inOrder handlers) := by
  have htrans : ∀ a b c : Handler σ, decide (a.priority ≤ b.priority) = true →
      decide (b.priority ≤ c.priority) = true → decide (a.priority ≤ c.priority) = true := by
    intro a b c hab hbc
    exact decide_eq_true (Int.le_trans (of_decide_eq_true hab) (of_decide_eq_true hbc))
  have htotal : ∀ a b : Handler σ,
      (decide (a.priority ≤ b.priority) || decide (b.priority ≤ a.priority)) = true := by
    intro a b
    rw [Bool.or_eq_true, decide_eq_true_iff, decide_eq_true_iff]
    exact Int.le_total _ _
  refine ⟨List.mergeSort_perm _ _,
    (List.pairwise_mergeSort htrans htotal handlers).imp of_decide_eq_true, fun priority ↦ ?_⟩
  -- the handlers of one priority stay in their order, and none of them is lost
  have hkept : (handlers.filter (·.priority = priority)).Sublist (inOrder handlers) := by
    refine List.sublist_mergeSort htrans htotal (List.pairwise_of_forall_mem_list ?_)
      List.filter_sublist
    intro a ha b hb
    have hap : a.priority = priority := of_decide_eq_true (List.mem_filter.1 ha).2
    have hbp : b.priority = priority := of_decide_eq_true (List.mem_filter.1 hb).2
    exact decide_eq_true (Int.le_of_eq (hap.trans hbp.symm))
  have hsame := hkept.filter (·.priority = priority)
  simp only [List.filter_filter, Bool.and_self] at hsame
  exact (hsame.eq_of_length ((List.mergeSort_perm handlers _).filter _).length_eq.symm).symm

/-! ### Insertion -/

/-- A list in ascending order falls into what an insertion goes behind and what it goes before. -/
theorem exists_halves (hascending : sorted.Pairwise fun a b ↦ a.priority ≤ b.priority)
    (priority : Int) : ∃ low high, sorted = low ++ high ∧ (∀ a ∈ low, a.priority ≤ priority) ∧
      ∀ a ∈ high, priority < a.priority := by
  induction sorted with
  | nil => exact ⟨[], [], rfl, by simp, by simp⟩
  | cons a rest ih =>
    obtain ⟨hle, hrest⟩ := List.pairwise_cons.1 hascending
    by_cases ha : a.priority ≤ priority
    · obtain ⟨low, high, rfl, hlow, hhigh⟩ := ih hrest
      exact ⟨a :: low, high, rfl, List.forall_mem_cons.2 ⟨ha, hlow⟩, hhigh⟩
    · have hlt := Int.not_le.1 ha
      refine ⟨[], a :: rest, rfl, by simp, List.forall_mem_cons.2 ⟨hlt, fun b hb ↦ ?_⟩⟩
      exact Int.lt_of_lt_of_le hlt (hle b hb)

/-- A handler is inserted between those of lower or equal and those of higher priority. -/
theorem insertByPriority_append {low high : List (Handler σ)}
    (hlow : ∀ a ∈ low, a.priority ≤ h.priority) (hhigh : ∀ a ∈ high, h.priority < a.priority) :
    insertByPriority h (low ++ high) = low ++ h :: high := by
  have hpoint : partitionPoint (fun a : Handler σ ↦ decide (a.priority ≤ h.priority))
      (low ++ high) = low.length :=
    partitionPoint_append (fun a ha ↦ decide_eq_true (hlow a ha))
      fun a ha ↦ decide_eq_false (Int.not_le.2 (hhigh a ha))
  rw [insertByPriority, hpoint]
  exact List.modifyTailIdx_add (List.cons h) 0 low high

/-- Inserting a handler sorts it in behind what was there before. -/
theorem StablySorted.insert (hsorted : StablySorted handlers sorted) (h : Handler σ) :
    StablySorted (handlers ++ [h]) (insertByPriority h sorted) := by
  obtain ⟨low, high, rfl, hlow, hhigh⟩ := exists_halves hsorted.ascending h.priority
  rw [insertByPriority_append hlow hhigh]
  refine ⟨?_, ?_, fun priority ↦ ?_⟩
  · exact List.perm_middle.trans ((hsorted.perm.cons h).trans (List.perm_append_singleton h _).symm)
  · obtain ⟨hl, hh, hacross⟩ := List.pairwise_append.1 hsorted.ascending
    refine List.pairwise_append.2 ⟨hl, List.pairwise_cons.2 ⟨fun b hb ↦ ?_, hh⟩, fun a ha b hb ↦ ?_⟩
    · exact Int.le_of_lt (hhigh b hb)
    · rcases List.mem_cons.1 hb with rfl | hb
      · exact hlow a ha
      · exact hacross a ha b hb
  · have hstable := hsorted.stable priority
    rw [List.filter_append] at hstable
    rw [List.filter_append, List.filter_append, ← hstable]
    by_cases hp : h.priority = priority
    · -- those of the same priority all stand in front
      have hnone : high.filter (·.priority = priority) = [] := by
        refine List.filter_eq_nil_iff.2 fun a ha hpa ↦ ?_
        have hlt := hhigh a ha
        rw [of_decide_eq_true hpa, hp] at hlt
        exact absurd hlt (Int.lt_irrefl _)
      rw [List.filter_cons_of_pos (by simpa using hp), List.filter_cons_of_pos (by simpa using hp),
        hnone, List.append_nil, List.filter_nil]
    · rw [List.filter_cons_of_neg (by simpa using hp), List.filter_cons_of_neg (by simpa using hp),
        List.filter_nil, List.append_nil]

end PeerRelay.Recovery
