import Mathlib.Data.List.Perm.Subperm
import PeerRelay.Proofs.Delivery.Provenance
import PeerRelay.Proofs.Delivery.Stopping

/-!
# Restarts do not resend

Generations follow each other over one store (`InTurn`). As long as no call of the store fails and
no id is submitted twice, a message is taken once by each peer, however often the pipeline is
restarted, and no peer is called again with what it took (`delivered_once`).

Nobody waits for a sending worker that was told to stop. It ends where it waits next, for a parcel
or for an answer. Where all share one thread the others act only while it waits, and it does not
outlive its process; but on a thread of its own it may be in the middle of a tour when the next
generation is started. The message of this tour is the one exception (`Undisturbed`): if its peer
took it and is not taken off yet, the store still wants the peer when it is read, and the peer takes
the message again (`taken_twice_of_overlap`).

The invariant is about one message and counts its peers (`Once`): in the generation that was started
last, a peer that took it is not pending, and none is pending twice; of the peers that took it the
store wants only those that are about to be taken off; and the workers of the generations before
have it in hand only where they wait, so that nobody is about to be taken off when the next
generation loads it.
-/

namespace PeerRelay.Delivery

open Observation World

/-! ### Pairs in a trace -/

namespace Observation

/-- The message and the peer that took it. -/
def taken? : Observation → Option (String × String)
  | .answered _ m target true => some (m.id, target.uri)
  | _ => none

/-- The message and the peer whose delivery was announced. -/
def sent? : Observation → Option (String × String)
  | .sent _ m target => some (m.id, target.uri)
  | _ => none

/-- The message and the peer that was called. -/
def attempted? : Observation → Option (String × String)
  | .attempt _ m target _ => some (m.id, target.uri)
  | _ => none

/-- The store failed to write a message or to take a peer off. -/
def isFault : Observation → Bool
  | .write _ _ _ false => true
  | .remove _ _ _ false => true
  | _ => false

theorem taken?_eq (o : Observation) : o.taken? = o.delivered?.map Duty.pair := by
  cases o with
  | answered ticket m target taken => cases taken <;> rfl
  | _ => rfl

end Observation

/-- The sending worker is in the middle of a tour with the message. -/
def Generation.isBusyWith (g : Generation) (id : String) : Bool :=
  !g.isSendingIdle && g.tour.any (·.parcel.message.id = id)

/-- The generations follow each other. One is started when all before it were told to stop, and from
then on this takes effect where their sending workers wait next: they do not go on from there. -/
def InTurn (w : World) : Move → Prop
  | .start _ _ => ∀ g ∈ w.generations, g.stopped = true
  | .act n a => a.resumes = true → n + 1 = w.generations.length
  | _ => True

/-- No generation is started while a sending worker is in the middle of a tour with the message: it
has come to where it waits. -/
def Undisturbed (id : String) (w : World) : Move → Prop
  | .start _ _ => ∀ g ∈ w.generations, g.isBusyWith id = false
  | _ => True

/-- The generations follow each other without disturbing a tour with the message. -/
def Sequential (id : String) (w : World) (m : Move) : Prop :=
  InTurn w m ∧ Undisturbed id w m

instance (w : World) : ∀ m, Decidable (InTurn w m)
  | .start _ _ => inferInstanceAs (Decidable (∀ g ∈ w.generations, g.stopped = true))
  | .act n a => inferInstanceAs (Decidable (a.resumes = true → n + 1 = w.generations.length))
  | .submit .. | .tick _ | .register _ | .unregister _ => inferInstanceAs (Decidable True)

instance (id : String) (w : World) : ∀ m, Decidable (Undisturbed id w m)
  | .start _ _ => inferInstanceAs (Decidable (∀ g ∈ w.generations, g.isBusyWith id = false))
  | .submit .. | .act _ _ | .tick _ | .register _ | .unregister _ =>
    inferInstanceAs (Decidable True)

instance (id : String) (w : World) (m : Move) : Decidable (Sequential id w m) :=
  inferInstanceAs (Decidable (_ ∧ _))

namespace Generation

variable {w : World} {g : Generation} {a : Action} {c : Change}

/-- The pairs that are pending. -/
def pairs (g : Generation) : List (String × String) :=
  g.pending.map Duty.pair

theorem taken_eq_map (seen : List Observation) :
    seen.filterMap taken? = (seen.filterMap delivered?).map Duty.pair := by
  rw [List.map_filterMap]
  exact congrArg (List.filterMap · seen) (funext taken?_eq)

/-- No action duplicates a pair. -/
theorem Acts.count_pairs (h : g.Acts w a c) (q : String × String) :
    (c.seen.filterMap taken?).count q + c.generation.pairs.count q ≤
      g.pairs.count q + ((c.seen.flatMap due).map Duty.pair).count q := by
  have hsub : List.Subperm (c.seen.filterMap delivered? ++ c.generation.pending)
      (g.pending ++ c.seen.flatMap due) := by
    refine List.subperm_iff_count.2 fun x ↦ ?_
    have hx := (h.keeps x).le
    rw [List.count_append, List.count_append]
    omega
  -- equal duties have equal pairs, but pairs may be equal for different duties
  obtain ⟨l, hperm, hsublist⟩ := hsub
  have hle := (hsublist.map Duty.pair).count_le q
  rw [(hperm.map Duty.pair).count_eq, List.map_append, List.map_append, List.count_append,
    List.count_append] at hle
  rwa [taken_eq_map, pairs, pairs]

/-- Unless the store fails, what becomes due is one message that was held, once for each peer. -/
theorem Acts.due_cases (h : g.Acts w a c) (hdone : ∀ o ∈ c.seen, o.isFault = false) :
    c.seen.flatMap due = [] ∨ ∃ s ∈ g.held, ((c.seen.flatMap due).map Duty.pair).Nodup ∧
      ∀ x ∈ c.seen.flatMap due, x.message.id = s.message.id := by
  cases h with
  | storeForNobody s call holding nobody => exact Or.inl rfl
  | storeCrashes s holding somebody => exact Or.inl rfl
  | storeFails s call holding somebody =>
    have hfault := hdone _ List.mem_cons_self
    cases hfault
  | storeWorks s record db holding somebody written =>
    obtain ⟨rfl, -⟩ := Store.write_eq_ok written
    have hdue : (Observation.write s.ticket s.message (s.recipients w.directory) true ::
        (distinctByUri (s.recipients w.directory)).map (.stored s.ticket s.message) ++
          [Observation.processed s (distinctByUri (s.recipients w.directory))]).flatMap due =
        owe s.ticket s.message (distinctByUri (s.recipients w.directory)) := by
      rw [List.flatMap_append, List.flatMap_cons, flatMap_due_stored]
      simp [due]
    refine Or.inr ⟨s, by simp [held, holding], ?_, ?_⟩
    · rw [hdue]
      refine List.Nodup.of_map Prod.snd ?_
      rw [owe, List.map_map, List.map_map]
      exact Store.uris_distinctByUri_nodup (s.recipients w.directory)
    · rw [hdue]
      intro x hx
      obtain ⟨i, -, rfl⟩ := List.mem_map.1 hx
      rfl
  | drop inUse free => exact Or.inl (flatMap_due_abandoned _)
  | _ => exact Or.inl rfl

/-- A peer that just took the message is about to be taken off it. -/
theorem Acts.finishing_of_taken {id uri : String} (h : g.Acts w a c)
    (htaken : (id, uri) ∈ c.seen.filterMap taken?) : c.generation.Finishing id uri := by
  cases h with
  | callDelivers p ahead target calling =>
    obtain ⟨rfl, rfl⟩ : id = p.message.id ∧ uri = target.uri := by
      simpa [taken?, List.filterMap_cons] using htaken
    exact ⟨_, target, rfl, rfl, rfl, rfl⟩
  | _ => simp [taken?, List.filterMap_cons, Function.comp_def] at htaken

/-- Unless the store fails, who is about to be taken off stays so until the store does not want it
any more. -/
theorem Acts.finishing_or_removed {id uri : String} (h : g.Acts w a c)
    (hdone : ∀ o ∈ c.seen, o.isFault = false) (hfinishing : g.Finishing id uri) :
    c.generation.Finishing id uri ∨ ¬ c.db.Wants id uri := by
  obtain ⟨t, i, touring, hi, rfl, rfl⟩ := hfinishing
  cases h with
  | announce p ahead target taken =>
    cases taken.symm.trans touring
    cases hi
    exact Or.inl ⟨_, i, rfl, rfl, rfl, rfl⟩
  | forget p ahead target removal leaving db done forgets =>
    cases leaving.symm.trans touring
    cases hi
    rcases forgets with ⟨-, hremove⟩ | ⟨rfl, -⟩
    · exact Or.inr fun hwants ↦ ((Store.wants_remove hremove).1 hwants).2 ⟨rfl, rfl⟩
    · have hfault := hdone _ List.mem_cons_self
      cases hfault
  | forgetCrashes p ahead target leaving =>
    have hfault := hdone _ List.mem_cons_self
    cases hfault
  | halt stopped waits =>
    rcases waits with idle | ⟨p, ahead, target, calling⟩
    · cases idle.symm.trans touring
    · cases calling.symm.trans touring
      cases hi
  | take p rest idle first => cases idle.symm.trans touring
  | endTour p leg | attempt p target ahead leg | callCrashes p ahead target leg
  | callDelivers p ahead target leg | callFails p ahead target leg
  | giveUpPeer p ahead target leg | keepPeer p ahead target leg | putBack p ahead target leg =>
    cases leg.symm.trans touring
    cases hi
  | _ => exact Or.inl ⟨t, i, by simpa using touring, hi, rfl, rfl⟩

/-- A peer is seen to take a message only where the sending worker waits for its answer. -/
theorem Acts.taken_of_not_resumes (h : g.Acts w a c) (ha : a.resumes = false) :
    c.seen.filterMap taken? = [] := by
  cases h with
  | callDelivers p ahead target calling => cases ha
  | _ => simp [taken?, List.filterMap_cons, Function.comp_def]

/-- The peer that is called is the next one of the tour, and nothing else is seen then. -/
theorem Acts.attempted (h : g.Acts w a c) : c.seen.filterMap attempted? = [] ∨
    ∃ o p target ahead, g.tour = some ⟨p, target :: ahead, .between⟩ ∧ c.seen = [o] ∧
      o.attempted? = some (p.message.id, target.uri) := by
  cases h with
  | attempt p target ahead next => exact Or.inr ⟨_, p, target, ahead, next, rfl, rfl⟩
  | _ => exact Or.inl (by simp [attempted?, List.filterMap_cons, Function.comp_def])

theorem isBusyWith_next {t : Tour} {id : String} (h : g.tour = t.next)
    (hne : t.parcel.message.id ≠ id) : g.isBusyWith id = false := by
  rw [Generation.isBusyWith, h, Tour.next]
  split <;> simp [hne]

/-- A sending worker that is not in the middle of a tour with a message gets there only from where it
waits. -/
theorem Acts.isBusyWith {id : String} (h : g.Acts w a c) (ha : a.resumes = false)
    (hfree : g.isBusyWith id = false) : c.generation.isBusyWith id = false := by
  cases h with
  | take | callCrashes | callDelivers | callFails => cases ha
  | forget p ahead target removal leaving db done forgets =>
    refine isBusyWith_next (t := ⟨p, ahead, .leaving target⟩) rfl ?_
    simpa [Generation.isBusyWith, isSendingIdle, leaving] using hfree
  | putBack p ahead target retrying =>
    refine isBusyWith_next (reinject_tour _ _ _) ?_
    simpa [Generation.isBusyWith, isSendingIdle, retrying] using hfree
  | _ => simp_all [Generation.isBusyWith, isSendingIdle, abortSending]

/-- What the peer took and is yet to be announced. -/
def announcing (g : Generation) : List (String × String) :=
  match g.tour with
  | some ⟨p, _, .taken i⟩ => [(p.message.id, i.uri)]
  | _ => []

theorem announcing_next {t : Tour} (h : g.tour = t.next) : g.announcing = [] := by
  rw [announcing, h, Tour.next]
  split <;> simp_all

/-- What was taken is announced next, and nothing else is. -/
theorem Acts.sent (h : g.Acts w a c) (q : String × String) :
    (c.seen.filterMap sent?).count q + c.generation.announcing.count q =
      g.announcing.count q + (c.seen.filterMap taken?).count q := by
  cases h with
  | forget p ahead target removal leaving db done forgets =>
    rw [announcing_next (t := ⟨p, ahead, .leaving target⟩) rfl]
    simp [announcing, leaving, sent?, taken?, List.filterMap_cons]
  | putBack p ahead target retrying =>
    rw [announcing_next (reinject_tour _ _ _)]
    simp [announcing, retrying]
  | halt stopped waits =>
    rcases waits with idle | ⟨p, ahead, target, calling⟩
    · simp [announcing, abortSending, idle]
    · simp [announcing, abortSending, calling]
  | _ =>
    simp_all [announcing, abortSending, sent?, taken?, List.filterMap_cons, Function.comp_def]

end Generation

/-! ### The invariant -/

/-- What was taken so far. -/
def takenOf (trace : List (Nat × Observation)) : List (String × String) :=
  trace.filterMap (·.2.taken?)

/-- An observation that comes later does not call a peer with the message that it took before. -/
def NotAgain (id : String) (later earlier : Nat × Observation) : Prop :=
  ∀ uri, later.2.attempted? = some (id, uri) → earlier.2.taken? ≠ some (id, uri)

/-- No generation was started since. -/
def World.IsLast (w : World) (n : Nat) (g : Generation) : Prop :=
  w.generations[n]? = some g ∧ n + 1 = w.generations.length

/-- In the generation that was started last no peer of the message is pending twice, and none that
took it. The workers of the generations before are not in the middle of a tour with it. Of the peers
that took it the store wants only those that are about to be taken off. -/
structure Once (id : String) (w : World) : Prop where
  taken : ∀ uri, (takenOf w.trace).count (id, uri) ≤ 1
  pending : ∀ n g, w.IsLast n g → ∀ uri,
    (takenOf w.trace).count (id, uri) + g.pairs.count (id, uri) ≤ 1
  earlier : ∀ n g, w.generations[n]? = some g → n + 1 < w.generations.length →
    g.isBusyWith id = false
  wants : ∀ uri, w.db.Wants id uri → (id, uri) ∈ takenOf w.trace → w.Finishing id uri
  order : w.trace.Pairwise (NotAgain id)

/-- What calls nobody comes after anything. -/
theorem pairwise_notAgain {id : String} {later trace : List (Nat × Observation)}
    (hlater : ∀ entry ∈ later, entry.2.attempted? = none) (h : trace.Pairwise (NotAgain id)) :
    (later ++ trace).Pairwise (NotAgain id) := by
  have hnever : ∀ entry ∈ later, ∀ earlier, NotAgain id entry earlier := by
    intro entry hentry earlier uri huri
    rw [hlater entry hentry] at huri
    cases huri
  exact List.pairwise_append.2
    ⟨List.pairwise_of_forall_mem_list fun entry hentry earlier _ ↦ hnever entry hentry earlier,
      h, fun entry hentry earlier _ ↦ hnever entry hentry earlier⟩

theorem takenOf_append (later trace : List (Nat × Observation)) :
    takenOf (later ++ trace) = takenOf later ++ takenOf trace :=
  List.filterMap_append

theorem takenOf_seen (n : Nat) (seen : List Observation) :
    takenOf (seen.map (n, ·)).reverse = (seen.filterMap taken?).reverse := by
  rw [takenOf, List.filterMap_reverse, List.filterMap_map]
  rfl

section Reached

variable {may : World → Move → Prop} {d : Directory} {db : Store.Database} {w : World} {n : Nat}
  {g : Generation} {id : String}

/-- What was taken had become due. -/
theorem due_of_taken {q : String × String} (hr : Reaches may (initial d db) w)
    (hq : q ∈ takenOf w.trace) : ∃ n, ∃ x ∈ (w.traceOf n).flatMap due, x.pair = q := by
  obtain ⟨⟨n, o⟩, ho, hoq⟩ := List.mem_filterMap.1 hq
  rw [taken?_eq] at hoq
  obtain ⟨x, hx, rfl⟩ := Option.map_eq_some_iff.1 hoq
  obtain ⟨g, hg⟩ := exists_generation hr ho
  have hpos : 0 < ((w.traceOf n).filterMap delivered?).count x :=
    List.count_pos_iff.2 (List.mem_filterMap.2 ⟨o, mem_traceOf.2 ho, hx⟩)
  have hle := (owed hr hg).le x
  exact ⟨n, x, List.count_pos_iff.1 (by omega), rfl⟩

/-- Nothing was taken or is pending under the id of what is held. -/
theorem fresh_of_held {s : Submission} {q : String × String} (hr : Reaches may (initial d db) w)
    (hfresh : FreshIds db w.trace) (hg : w.generations[n]? = some g) (hs : s ∈ g.held)
    (hq : q.1 = s.message.id) : q ∉ takenOf w.trace ∧ q ∉ g.pairs := by
  constructor
  · intro htaken
    obtain ⟨n', x, hx, rfl⟩ := due_of_taken hr htaken
    exact id_ne_of_due hr hfresh hg hs hx hq
  · intro hpending
    obtain ⟨x, hx, rfl⟩ := List.mem_map.1 hpending
    exact id_ne_of_due hr hfresh hg hs ((owed hr hg).mem_due hx) hq

/-! ### What one action does -/

section Act

variable {a : Action} {c : Change} (hr : Reaches may (initial d db) w)
  (hg : w.generations[n]? = some g) (hacts : g.Acts w a c)

include hr hg hacts

/-- The generation that was started last still has no peer twice: what becomes due has a new id. -/
theorem Once.count_le (h : Once id w) (hfresh : FreshIds db w.trace)
    (hdone : ∀ o ∈ c.seen, o.isFault = false) (hlast : n + 1 = w.generations.length)
    (uri : String) :
    (c.seen.filterMap taken?).count (id, uri) + (takenOf w.trace).count (id, uri) +
      c.generation.pairs.count (id, uri) ≤ 1 := by
  have hlaw := hacts.count_pairs (id, uri)
  have hbefore := h.pending n g ⟨hg, hlast⟩ uri
  rcases hacts.due_cases hdone with hnone | ⟨s, hs, hnodup, hid⟩
  · rw [hnone, List.map_nil, List.count_nil] at hlaw
    omega
  · by_cases hdue : (id, uri) ∈ (c.seen.flatMap due).map Duty.pair
    · obtain ⟨x, hx, hpair⟩ := List.mem_map.1 hdue
      have hheld : id = s.message.id := (congrArg Prod.fst hpair).symm.trans (hid x hx)
      obtain ⟨htaken, hpending⟩ := fresh_of_held (q := (id, uri)) hr hfresh hg hs hheld
      have hle := List.nodup_iff_count_le_one.1 hnodup (id, uri)
      rw [List.count_eq_zero_of_not_mem htaken]
      rw [List.count_eq_zero_of_not_mem hpending] at hlaw
      omega
    · rw [List.count_eq_zero_of_not_mem hdue] at hlaw
      omega

omit hr in
/-- A peer is called with the message by the generation that was started last, for which it is
pending, and so did not take it. -/
theorem Once.order_act (h : Once id w) :
    ((c.seen.map (n, ·)).reverse ++ w.trace).Pairwise (NotAgain id) := by
  rcases hacts.attempted with hnone | ⟨o, p, target, ahead, next, hseen, ho⟩
  · refine pairwise_notAgain (fun entry hentry ↦ ?_) h.order
    simp only [List.mem_reverse, List.mem_map] at hentry
    obtain ⟨o, ho, rfl⟩ := hentry
    exact List.filterMap_eq_nil_iff.1 hnone o ho
  · rw [hseen]
    refine List.pairwise_cons.2 ⟨fun earlier hearlier uri huri htaken ↦ ?_, h.order⟩
    obtain ⟨rfl, rfl⟩ := Prod.mk.inj (Option.some.inj (ho.symm.trans huri))
    by_cases hlast : n + 1 = w.generations.length
    · have hle := h.pending n g ⟨hg, hlast⟩ target.uri
      have hpending : 0 < g.pairs.count (p.message.id, target.uri) :=
        List.count_pos_iff.2 (List.mem_map_of_mem (g.mem_pending_of_next next))
      have htaken : 0 < (takenOf w.trace).count (p.message.id, target.uri) :=
        List.count_pos_iff.2 (List.mem_filterMap.2 ⟨earlier, hearlier, htaken⟩)
      omega
    · have hlt := (List.getElem?_eq_some_iff.1 hg).1
      have hfree := h.earlier n g hg (by omega)
      simp [Generation.isBusyWith, Generation.isSendingIdle, next] at hfree

theorem Once.act (h : Once id w) (hfresh : FreshIds db w.trace)
    (hdone : ∀ o ∈ c.seen, o.isFault = false)
    (hallowed : a.resumes = true → n + 1 = w.generations.length) :
    Once id { w with
      db := c.db
      generations := w.generations.set n c.generation
      trace := (c.seen.map (n, ·)).reverse ++ w.trace } := by
  have htakenOf : ∀ q, (takenOf ((c.seen.map (n, ·)).reverse ++ w.trace)).count q =
      (c.seen.filterMap taken?).count q + (takenOf w.trace).count q := by
    intro q
    rw [takenOf_append, takenOf_seen, List.count_append, List.count_reverse]
  -- either this generation was started last and counts for all, or nobody takes anything of it
  have hle := h.count_le hr hg hacts hfresh hdone
  have hresumes : n + 1 ≠ w.generations.length → a.resumes = false := fun hne ↦ by
    simpa using mt hallowed hne
  have hearlier : n + 1 ≠ w.generations.length → c.seen.filterMap taken? = [] := fun hne ↦
    hacts.taken_of_not_resumes (hresumes hne)
  refine ⟨fun uri ↦ ?_, ?_, ?_, ?_, h.order_act hg hacts⟩
  · rw [htakenOf]
    by_cases hlast : n + 1 = w.generations.length
    · have hthis := hle hlast uri
      omega
    · have hbefore := h.taken uri
      rw [hearlier hlast, List.count_nil]
      omega
  · rintro n' g' ⟨hg', hlast'⟩ uri
    rw [List.length_set] at hlast'
    rw [htakenOf]
    rcases cases_of_set hg' with ⟨rfl, rfl⟩ | ⟨hne, hbefore⟩
    · exact hle hlast' uri
    · have hq := h.pending n' g' ⟨hbefore, hlast'⟩ uri
      rw [hearlier (by omega), List.count_nil]
      omega
  · intro n' g' hg' hlt
    rw [List.length_set] at hlt
    rcases cases_of_set hg' with ⟨rfl, rfl⟩ | ⟨-, hbefore⟩
    · exact hacts.isBusyWith (hresumes hlt.ne) (h.earlier n g hg hlt)
    · exact h.earlier n' g' hbefore hlt
  · intro uri hwants hmem
    have hlt := (List.getElem?_eq_some_iff.1 hg).1
    have hthis : c.generation.Finishing id uri → World.Finishing { w with
        db := c.db
        generations := w.generations.set n c.generation
        trace := (c.seen.map (n, ·)).reverse ++ w.trace } id uri :=
      fun hfinishing ↦ ⟨n, _, List.getElem?_set_self hlt, hfinishing⟩
    rw [takenOf_append, takenOf_seen] at hmem
    rcases List.mem_append.1 hmem with hnow | hbefore
    · exact hthis (hacts.finishing_of_taken (List.mem_reverse.1 hnow))
    · rcases hacts.wants_of hwants with hwants' | ⟨s, hs, hid⟩
      · obtain ⟨n', g', hg', hfinishing⟩ := h.wants uri hwants' hbefore
        by_cases hn : n = n'
        · subst hn
          obtain rfl : g = g' := Option.some.inj (hg.symm.trans hg')
          exact hthis ((hacts.finishing_or_removed hdone hfinishing).resolve_right
            fun hnot ↦ hnot hwants)
        · exact ⟨n', g', (List.getElem?_set_ne hn).trans hg', hfinishing⟩
      · exact absurd hbefore (fresh_of_held hr hfresh hg hs hid.symm).1

end Act

/-! ### What a start does -/

/-- The pairs of records that are to be reloaded. -/
theorem pairs_newGeneration (settings : Settings) (first : Nat) (records : List Store.Record) :
    (newGeneration settings (numbered first records)).pairs =
      records.flatMap fun record ↦ record.targets.map fun i ↦ (record.message.id, i.uri) := by
  have hpending : (newGeneration settings (numbered first records)).pending =
      (numbered first records).flatMap fun entry ↦
        owe entry.1 entry.2.message entry.2.targets := by
    simp [Generation.pending, newGeneration, queued, Queue.make, Reload.duties]
  have hrecords : (numbered first records).map (·.2) = records := by
    rw [numbered, List.map_map]
    exact List.zipIdx_map_fst first records
  conv_rhs => rw [← hrecords, List.flatMap_map]
  rw [Generation.pairs, hpending, List.map_flatMap]
  refine List.flatMap_congr fun entry _ ↦ ?_
  rw [owe, List.map_map]
  rfl

/-- A generation that starts has nothing twice, and only what the store wants. -/
theorem pairs_of_load (settings : Settings) {call : StoreCall} {records : List Store.Record}
    {db' : Store.Database} (hr : Reaches may (initial d db) w) (keyed : db.Keyed)
    (hloaded : w.load call = (records, db')) :
    (newGeneration settings (numbered w.nextTicket records)).pairs.Nodup ∧
      ∀ q ∈ (newGeneration settings (numbered w.nextTicket records)).pairs,
        w.db.Wants q.1 q.2 := by
  rw [pairs_newGeneration]
  rcases db_of_load hloaded with ⟨rfl, -⟩ | hload
  · exact ⟨List.nodup_nil, fun q hq ↦ absurd hq List.not_mem_nil⟩
  · refine ⟨Store.nodup_of_load hload (keyed_of_reaches hr keyed), fun q hq ↦ ?_⟩
    obtain ⟨record, hrecord, hq⟩ := List.mem_flatMap.1 hq
    obtain ⟨i, hi, rfl⟩ := List.mem_map.1 hq
    exact Store.wants_of_mem_load hload hrecord hi

/-- Reading the store does not make it want anything. -/
theorem wants_of_load {call : StoreCall} {records : List Store.Record} {db' : Store.Database}
    {id uri : String} (hloaded : w.load call = (records, db')) (h : db'.Wants id uri) :
    w.db.Wants id uri := by
  rcases db_of_load hloaded with ⟨-, rfl⟩ | hload
  · exact h
  · exact (Store.wants_load hload).1 h

/-- A sending worker that is not in the middle of a tour with a message is not about to take anybody
off it. -/
theorem not_finishing_of_free {uri : String} (hfree : g.isBusyWith id = false) :
    ¬ g.Finishing id uri := by
  rintro ⟨⟨p, ahead, leg⟩, i, touring, hi, rfl, -⟩
  rw [Generation.isBusyWith, Generation.isSendingIdle, touring] at hfree
  cases leg <;> simp_all [Leg.finished?]

/-- A generation that starts after the others has no peer twice and none that took the message,
since the store has not. -/
theorem Once.start {settings : Settings} {call : StoreCall} {records : List Store.Record}
    {db' : Store.Database} (h : Once id w) (hr : Reaches may (initial d db) w) (keyed : db.Keyed)
    (hfree : ∀ g ∈ w.generations, g.isBusyWith id = false)
    (hloaded : w.load call = (records, db')) :
    Once id { w with
      db := db'
      nextTicket := w.nextTicket + records.length
      generations := w.generations ++ [newGeneration settings (numbered w.nextTicket records)]
      trace := ((reloadSeen (numbered w.nextTicket records)).map
        (w.generations.length, ·)).reverse ++ w.trace } := by
  have htakenOf : takenOf (((reloadSeen (numbered w.nextTicket records)).map
      (w.generations.length, ·)).reverse ++ w.trace) = takenOf w.trace := by
    have hnothing : (reloadSeen (numbered w.nextTicket records)).filterMap taken? = [] := by
      simp [reloadSeen, taken?, Function.comp_def]
    rw [takenOf_append, takenOf_seen, hnothing]
    rfl
  -- nobody is about to be taken off, so whom the store wants did not take the message
  have hunwanted : ∀ uri, w.db.Wants id uri → (id, uri) ∉ takenOf w.trace := by
    intro uri hwants htaken
    obtain ⟨n, g, hg, hfinishing⟩ := h.wants uri hwants htaken
    exact not_finishing_of_free (hfree g (List.mem_of_getElem? hg)) hfinishing
  obtain ⟨hnodup, hwanted⟩ := pairs_of_load settings hr keyed hloaded
  refine ⟨?_, ?_, ?_, ?_, ?_⟩
  · rw [htakenOf]
    exact h.taken
  · rintro n g ⟨hg, hlast⟩ uri
    rw [List.length_append, List.length_singleton] at hlast
    obtain ⟨-, rfl⟩ : n = w.generations.length ∧ g = _ := by
      refine (cases_of_concat hg).resolve_right fun hbefore ↦ ?_
      have hlt := (List.getElem?_eq_some_iff.1 hbefore).1
      omega
    rw [htakenOf]
    have hle := List.nodup_iff_count_le_one.1 hnodup (id, uri)
    by_cases hpair : (id, uri) ∈ (newGeneration settings (numbered w.nextTicket records)).pairs
    · have htaken : (takenOf w.trace).count (id, uri) = 0 :=
        List.count_eq_zero_of_not_mem (hunwanted uri (hwanted _ hpair))
      omega
    · rw [List.count_eq_zero_of_not_mem hpair]
      exact h.taken uri
  · intro n g hg hlt
    rw [List.length_append, List.length_singleton] at hlt
    rcases cases_of_concat hg with ⟨rfl, -⟩ | hbefore
    · omega
    · exact hfree g (List.mem_of_getElem? hbefore)
  · intro uri hwants htaken
    rw [htakenOf] at htaken
    exact absurd htaken (hunwanted uri (wants_of_load hloaded hwants))
  · refine pairwise_notAgain (fun entry hentry ↦ ?_) h.order
    simp only [reloadSeen, List.mem_reverse, List.mem_map] at hentry
    obtain ⟨o, ⟨r, -, rfl⟩, rfl⟩ := hentry
    rfl

/-! ### Over a run -/

/-- What neither calls peers nor changes what is pending keeps the invariant. -/
theorem Once.idle {w' : World} (h : Once id w) (later : List (Nat × Observation))
    (htrace : w'.trace = later ++ w.trace) (hdb : w'.db = w.db)
    (hlater : ∀ entry ∈ later, entry.2.taken? = none ∧ entry.2.attempted? = none)
    (hlength : w'.generations.length = w.generations.length)
    (hsame : ∀ (n : Nat) (g' : Generation), w'.generations[n]? = some g' → ∃ g : Generation,
      w.generations[n]? = some g ∧ g'.pairs = g.pairs ∧ g'.tour = g.tour) : Once id w' := by
  have hnone : takenOf later = [] :=
    List.filterMap_eq_nil_iff.2 fun entry hentry ↦ (hlater entry hentry).1
  have htakenOf : takenOf w'.trace = takenOf w.trace := by
    rw [htrace, takenOf_append, hnone, List.nil_append]
  refine ⟨htakenOf ▸ h.taken, ?_, ?_, ?_, ?_⟩
  · rintro n g' ⟨hg', hlast⟩ uri
    obtain ⟨g, hg, hpairs, -⟩ := hsame n g' hg'
    rw [htakenOf, hpairs]
    exact h.pending n g ⟨hg, hlast.trans hlength⟩ uri
  · intro n g' hg' hlt
    obtain ⟨g, hg, -, htour⟩ := hsame n g' hg'
    have hfree := h.earlier n g hg (hlength ▸ hlt)
    simpa only [Generation.isBusyWith, Generation.isSendingIdle, htour] using hfree
  · intro uri hwants htaken
    rw [hdb] at hwants
    rw [htakenOf] at htaken
    obtain ⟨n, g, hg, t, i, touring, hfinishing⟩ := h.wants uri hwants htaken
    have hlt : n < w'.generations.length :=
      hlength ▸ (List.getElem?_eq_some_iff.1 hg).1
    obtain ⟨g₁, hg₁, -, htour⟩ := hsame n _ (List.getElem?_eq_getElem hlt)
    obtain rfl : g₁ = g := Option.some.inj (hg₁.symm.trans hg)
    exact ⟨n, _, List.getElem?_eq_getElem hlt, t, i, htour.trans touring, hfinishing⟩
  · rw [htrace]
    exact pairwise_notAgain (fun entry hentry ↦ (hlater entry hentry).2) h.order

theorem once (hr : Reaches (Sequential id) (initial d db) w) (keyed : db.Keyed)
    (hfresh : FreshIds db w.trace) (hdone : ∀ entry ∈ w.trace, entry.2.isFault = false) :
    Once id w := by
  refine Reaches.induct (P := fun w ↦ FreshIds db w.trace →
    (∀ entry ∈ w.trace, entry.2.isFault = false) → Once id w) hr ?_
    (fun {v v' m} hv hallowed hmove ih hfresh hdone ↦ ?_) hfresh hdone
  · intro _ _
    refine ⟨by simp [takenOf, initial], ?_, ?_, fun _ _ h ↦ absurd h List.not_mem_nil,
      List.Pairwise.nil⟩
    · rintro n g ⟨hg, -⟩
      simp [initial] at hg
    · intro n g hg
      simp [initial] at hg
  · obtain ⟨inTurn, undisturbed⟩ := hallowed
    cases hmove with
    | start settings call records db' loaded =>
      have ih := ih (hfresh.of_suffix (List.suffix_append _ _))
        fun entry hentry ↦ hdone entry (List.mem_append_right _ hentry)
      exact ih.start hv keyed undisturbed loaded
    | refuse n g m targets at_n closed inUse =>
      have ih := ih (hfresh.of_suffix ((List.suffix_cons _ _).trans (List.suffix_cons _ _)))
        fun entry hentry ↦ hdone entry (List.mem_cons_of_mem _ (List.mem_cons_of_mem _ hentry))
      exact ih.idle [_, _] rfl rfl (by simp [taken?, attempted?]) rfl
        fun _ g hg ↦ ⟨g, hg, rfl, rfl⟩
    | call n g m targets at_n isOpen inUse =>
      have ih := ih (hfresh.of_suffix (List.suffix_cons _ _))
        fun entry hentry ↦ hdone entry (List.mem_cons_of_mem _ hentry)
      refine ih.idle [_] rfl rfl (by simp [taken?, attempted?]) (List.length_set) ?_
      intro n' g' hg'
      rcases cases_of_set hg' with ⟨rfl, rfl⟩ | ⟨-, hbefore⟩
      · exact ⟨g, at_n, rfl, rfl⟩
      · exact ⟨g', hbefore, rfl, rfl⟩
    | act n g a c at_n acts =>
      have hbefore := hfresh.of_suffix (List.suffix_append _ _)
      have ih := ih hbefore fun entry hentry ↦ hdone entry (List.mem_append_right _ hentry)
      refine ih.act hv at_n acts hbefore (fun o ho ↦ hdone (n, o) (List.mem_append_left _ ?_))
        inTurn
      exact List.mem_reverse.2 (List.mem_map_of_mem ho)
    | tick millis =>
      exact (ih hfresh hdone).idle [] rfl rfl (by simp) rfl fun _ g hg ↦ ⟨g, hg, rfl, rfl⟩
    | register i =>
      exact (ih hfresh hdone).idle [] rfl rfl (by simp) rfl fun _ g hg ↦ ⟨g, hg, rfl, rfl⟩
    | unregister uri =>
      exact (ih hfresh hdone).idle [] rfl rfl (by simp) rfl fun _ g hg ↦ ⟨g, hg, rfl, rfl⟩

end Reached

/-- One of two peers took the first message, and the retry for the other one sleeps. When the time
of a shutdown is over the peer of the second message took it, and it is taken off only after the
pipeline was started again. -/
def overlapMoves : List Move :=
  [.start {} .works,
    .submit 0 { (default : Message) with id := "1" } [⟨"a", "http://a"⟩, ⟨"b", "http://b"⟩],
    .submit 0 { (default : Message) with id := "2" } [⟨"a", "http://a"⟩],
    .act 0 (.arrive 0), .act 0 .accept, .act 0 (.arrive 1), .act 0 .accept,
    .act 0 .receive, .act 0 (.store .works), .act 0 .forward,
    .act 0 .take, .act 0 .attempt, .act 0 (.answer .delivers), .act 0 .announce,
    .act 0 (.forget .works), .act 0 .attempt, .act 0 (.answer .fails), .act 0 .lookUp,
    .act 0 .putBack,
    .act 0 .receive, .act 0 (.store .works), .act 0 .forward,
    .act 0 .take, .act 0 .attempt, .act 0 (.answer .delivers), .act 0 .close, .act 0 .expire,
    .start {} .works, .act 0 .announce, .act 0 (.forget .works), .act 0 .halt]

/-- The other generation goes through what it loaded while the retry wakes up, and a third one finds
nothing. -/
def againMoves : List Move :=
  [.tick 1000, .act 0 (.wake 0),
    .act 1 .reload, .act 1 .take, .act 1 .attempt, .act 1 (.answer .delivers), .act 1 .announce,
    .act 1 (.forget .works),
    .act 1 .reload, .act 1 .take, .act 1 .attempt, .act 1 (.answer .delivers), .act 1 .announce,
    .act 1 (.forget .works), .act 1 .drop, .start {} .works]

/-- That the generations follow each other is not enough: the message with which a sending worker is
in the middle of a tour when the next generation is started may be taken twice. -/
theorem taken_twice_of_overlap :
    ∃ w, Reaches InTurn (initial ⟨[]⟩ .fresh) w ∧ FreshIds .fresh w.trace ∧
      (∀ entry ∈ w.trace, entry.2.isFault = false) ∧
      (takenOf w.trace).count ("2", "http://a") = 2 := by
  have hrun : ((initial ⟨[]⟩ .fresh).run InTurn (overlapMoves ++ againMoves)).any (fun w ↦
      w.generations[0]?.any fun _ ↦ acceptedIds w.trace = ["2", "1"] ∧
        (∀ entry ∈ w.trace, entry.2.isFault = false) ∧
        (takenOf w.trace).count ("2", "http://a") = 2) = true := by
    decide +kernel
  obtain ⟨w, -, hr, -, htest⟩ := exists_of_run hrun
  obtain ⟨hids, hdone, htwice⟩ := of_decide_eq_true htest
  exact ⟨w, hr, freshIds_fresh (hids ▸ by decide), hdone, htwice⟩

end PeerRelay.Delivery
