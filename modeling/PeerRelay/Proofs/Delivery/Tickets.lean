import Mathlib.Data.List.Nodup
import PeerRelay.Proofs.Delivery.Runs

/-!
# Tickets

Every submission and every reloaded record has a ticket of its own: over a whole world with all its
generations no ticket is issued twice (`issued_nodup`). So a ticket tells what an observation
belongs to, even if the ids of messages repeat, and a ticket of one generation is never seen in
another (`eq_of_issued`).
-/

namespace PeerRelay.Delivery

/-- The ticket that an observation issues. -/
def Observation.issued? : Observation → Option Nat
  | .called s => some s.ticket
  | .reloaded ticket _ => some ticket
  | _ => none

namespace World

/-- The tickets that a trace issues. -/
def issued (trace : List (Nat × Observation)) : List Nat :=
  trace.filterMap (·.2.issued?)

theorem map_fst_numbered (first : Nat) (records : List Store.Record) :
    (numbered first records).map (·.1) = List.range' first records.length := by
  simp [numbered, Function.comp_def]

theorem issued_append (later trace : List (Nat × Observation)) :
    issued (later ++ trace) = issued later ++ issued trace :=
  List.filterMap_append

theorem issued_reloadSeen (n first : Nat) (records : List Store.Record) :
    issued ((reloadSeen (numbered first records)).map (n, ·)).reverse =
      (List.range' first records.length).reverse := by
  rw [← map_fst_numbered, issued, List.filterMap_reverse, List.filterMap_map, reloadSeen,
    List.filterMap_map, ← List.filterMap_eq_map]
  rfl

/-- An action issues no ticket. -/
theorem issued?_of_acts {w : World} {g : Generation} {a : Action} {c : Change}
    (h : g.Acts w a c) : ∀ o ∈ c.seen, o.issued? = none := by
  cases h
  case drop =>
    intro o ho
    obtain ⟨ticket, -, rfl⟩ := List.mem_map.1 ho
    rfl
  all_goals simp +contextual [Observation.issued?, or_imp]

theorem issued_of_acts {w : World} {g : Generation} {a : Action} {c : Change} (n : Nat)
    (h : g.Acts w a c) : issued (c.seen.map (n, ·)).reverse = [] := by
  rw [issued, List.filterMap_reverse, List.filterMap_map, List.reverse_eq_nil_iff,
    List.filterMap_eq_nil_iff]
  exact issued?_of_acts h

theorem fresh_cons {tickets : List Nat} {next : Nat} (hnodup : tickets.Nodup)
    (hlt : ∀ ticket ∈ tickets, ticket < next) :
    (next :: tickets).Nodup ∧ ∀ ticket ∈ next :: tickets, ticket < next + 1 := by
  refine ⟨List.nodup_cons.2 ⟨fun hmem ↦ Nat.lt_irrefl _ (hlt _ hmem), hnodup⟩, ?_⟩
  intro ticket hticket
  rcases List.mem_cons.1 hticket with rfl | hold
  · exact Nat.lt_succ_self _
  · exact Nat.lt_succ_of_lt (hlt ticket hold)

variable {allowed : World → Move → Prop} {d : Directory} {db : Store.Database} {w : World}

/-- No ticket is issued twice, and the next one was not issued yet. -/
theorem issued_fresh (hr : Reaches allowed (initial d db) w) :
    (issued w.trace).Nodup ∧ ∀ ticket ∈ issued w.trace, ticket < w.nextTicket := by
  refine Reaches.induct (P := fun w ↦ (issued w.trace).Nodup ∧
    ∀ ticket ∈ issued w.trace, ticket < w.nextTicket) hr (by simp [initial, issued])
    fun {v v' m} _ _ hmove ih ↦ ?_
  obtain ⟨hnodup, hlt⟩ := ih
  cases hmove with
  | start settings call records db loaded =>
    rw [issued_append, issued_reloadSeen]
    refine ⟨List.Nodup.append (List.nodup_reverse.2 List.nodup_range') hnodup ?_, ?_⟩
    · intro ticket hnew hold
      have hle := (List.mem_range'_1.1 (List.mem_reverse.1 hnew)).1
      exact absurd (hlt ticket hold) (by omega)
    · intro ticket hticket
      rcases List.mem_append.1 hticket with hnew | hold
      · have hbound := (List.mem_range'_1.1 (List.mem_reverse.1 hnew)).2
        exact hbound
      · exact Nat.lt_of_lt_of_le (hlt ticket hold) (Nat.le_add_right _ _)
  | refuse n g m targets at_n closed inUse =>
    exact fresh_cons hnodup hlt
  | call n g m targets at_n isOpen inUse =>
    exact fresh_cons hnodup hlt
  | act n g a c at_n acts =>
    rw [issued_append, issued_of_acts n acts]
    exact ⟨hnodup, hlt⟩
  | tick millis => exact ⟨hnodup, hlt⟩
  | register i => exact ⟨hnodup, hlt⟩
  | unregister uri => exact ⟨hnodup, hlt⟩

/-- **No ticket is issued twice**, in whatever generation. -/
theorem issued_nodup (hr : Reaches allowed (initial d db) w) : (issued w.trace).Nodup :=
  (issued_fresh hr).1

/-- What a list maps to without repetition comes from one of its members only. -/
theorem eq_of_filterMap_nodup {α β : Type} {f : α → Option β} {l : List α} {a a' : α} {b : β}
    (h : (l.filterMap f).Nodup) (ha : a ∈ l) (ha' : a' ∈ l) (hb : f a = some b)
    (hb' : f a' = some b) : a = a' := by
  have hpairwise := List.pairwise_filterMap.1 h
  by_contra hne
  have hall := List.pairwise_iff_getElem.1 hpairwise
  obtain ⟨i, hi, rfl⟩ := List.getElem_of_mem ha
  obtain ⟨j, hj, rfl⟩ := List.getElem_of_mem ha'
  rcases Nat.lt_trichotomy i j with hij | rfl | hij
  · exact hall i j hi hj hij b hb b hb' rfl
  · exact hne rfl
  · exact hall j i hj hi hij b hb' b hb rfl

/-- A ticket belongs to one generation and one observation. -/
theorem eq_of_issued {entry entry' : Nat × Observation} {ticket : Nat}
    (hr : Reaches allowed (initial d db) w) (h : entry ∈ w.trace) (h' : entry' ∈ w.trace)
    (hissued : entry.2.issued? = some ticket) (hissued' : entry'.2.issued? = some ticket) :
    entry = entry' :=
  eq_of_filterMap_nodup (issued_nodup hr) h h' hissued hissued'

theorem issued?_seenOf_sublist (n : Nat) (trace : List (Nat × Observation)) :
    ((seenOf n trace).filterMap Observation.issued?).Sublist (issued trace) := by
  rw [seenOf, List.filterMap_map]
  exact List.Sublist.filterMap _ List.filter_sublist

/-- No ticket is issued twice in one generation. -/
theorem traceOf_issued_nodup (hr : Reaches allowed (initial d db) w) (n : Nat) :
    ((w.traceOf n).filterMap Observation.issued?).Nodup :=
  List.Nodup.sublist (issued?_seenOf_sublist n w.trace) (issued_nodup hr)

end World

end PeerRelay.Delivery
