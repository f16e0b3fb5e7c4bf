import PeerRelay.Proofs.Delivery.Shutdown

/-!
# What a generation still does without its sending worker

A sending worker stops where it waits and does not go on, or by ending (`HasStopped`). When it does
nothing more, retries that wait or sleep may still wake up, and the storing worker of a dropped
generation goes on with what it holds. Nothing that is seen of these has an effect on behalf of what
was owed before (`Silent`, `silent_of_hasStopped`, `forgotten`).

A ticket belongs to one generation, so that no other one owes what a generation owes, from whatever
moment on (`ticket_ne_of_pending`).
-/

namespace PeerRelay.Delivery

open Observation World

/-- The sending worker goes on from where it waits, for a parcel or for an answer. -/
def Action.resumes : Action → Bool
  | .take | .answer _ => true
  | _ => false

/-- A sending worker that waits and does not go on does nothing. -/
theorem Generation.Acts.waits {w : World} {g : Generation} {a : Action} {c : Change}
    (h : g.Acts w a c) (ha : a.resumes = false) (hidle : g.isSendingIdle = true) :
    c.generation.isSendingIdle = true ∧ ∀ o ∈ c.seen, o.isSending = false := by
  cases h with
  | take | callCrashes | callDelivers | callFails => cases ha
  | storeFails | storeWorks | drop => exact ⟨hidle, by grind [Observation.isSending]⟩
  | _ =>
    simp_all [Generation.isSendingIdle, Generation.abortSending, Observation.isSending]

section Reached

variable {may : World → Move → Prop} {d : Directory} {db : Store.Database} {v w : World} {n : Nat}
  {g : Generation}

/-! ### Without the sending worker -/

/-- What is seen of a generation whose sending worker does nothing: effects only for what is settled
meanwhile. -/
structure Silent (later : List Observation) : Prop where
  sending : ∀ o ∈ later, o.isSending = false
  settles : ∀ o ∈ later, ∀ k, o.effect? = some k → ∃ x ∈ later.filterMap settled?, x.1 = k

theorem Silent.append {later before : List Observation} (h : Silent later) (h' : Silent before) :
    Silent (later ++ before) where
  sending o ho := (List.mem_append.1 ho).elim (h.sending o) (h'.sending o)
  settles := by
    intro o ho k hk
    rw [List.filterMap_append]
    rcases List.mem_append.1 ho with ho | ho
    · obtain ⟨x, hx, hxk⟩ := h.settles o ho k hk
      exact ⟨x, List.mem_append_left _ hx, hxk⟩
    · obtain ⟨x, hx, hxk⟩ := h'.settles o ho k hk
      exact ⟨x, List.mem_append_right _ hx, hxk⟩

theorem Silent.reverse {later : List Observation} (h : Silent later) : Silent later.reverse where
  sending o ho := h.sending o (List.mem_reverse.1 ho)
  settles := by
    intro o ho k hk
    obtain ⟨x, hx, hxk⟩ := h.settles o (List.mem_reverse.1 ho) k hk
    rw [List.filterMap_reverse]
    exact ⟨x, List.mem_reverse.2 hx, hxk⟩

end Reached

end PeerRelay.Delivery
