import PeerRelay.Proofs.Delivery.FirstAttempts

/-!
# What is reloaded goes first

A generation attempts the records that were loaded, each for its stored peers and for nobody else,
and behind them the submissions in the order of acceptance (`first_attempts_in_order`). A record is
not written again, and every call that is no first attempt repeats one that was made before.
-/

namespace PeerRelay.Delivery

open Observation World

/-! ### Retries repeat calls -/

/-- Each retry in a trace, latest first, was preceded by the call that it repeats. -/
def RetriesFollow (tr : List Observation) : Prop :=
  ∀ before after k m i f, tr = after ++ .attempt k m i (f + 1) :: before →
    .attempt k m i f ∈ before

theorem RetriesFollow.later {tr : List Observation} (h : RetriesFollow tr)
    (seen : List Observation) (hseen : ∀ k m i f, .attempt k m i f ∉ seen) :
    RetriesFollow (seen ++ tr) := by
  intro before after k m i f htr
  rcases List.append_eq_append_iff.1 htr with ⟨later, rfl, htail⟩ | ⟨rest, hseen', hrest⟩
  · exact h before later k m i f htail
  · rcases rest with - | ⟨o, rest⟩
    · exact h before [] k m i f hrest.symm
    · obtain ⟨rfl, -⟩ := List.cons.inj hrest
      refine absurd ?_ (hseen k m i (f + 1))
      rw [hseen']
      exact List.mem_append_right _ List.mem_cons_self

theorem RetriesFollow.attempt {tr : List Observation} (h : RetriesFollow tr) {k : Nat}
    {m : Message} {i : Instance} {failures : Nat}
    (hbefore : ∀ f, failures = f + 1 → .attempt k m i f ∈ tr) :
    RetriesFollow (.attempt k m i failures :: tr) := by
  intro before after k' m' i' f htr
  rcases after with - | ⟨o, after⟩
  · obtain ⟨heq, rfl⟩ := List.cons.inj htr
    obtain ⟨rfl, rfl, rfl, hf⟩ := Observation.attempt.inj heq
    exact hbefore f hf
  · exact h before after k' m' i' f (List.cons.inj htr).2

/-- The duties of a parcel, each with the number of calls for it that failed. -/
def Parcel.counted (p : Parcel) : List (Duty × Nat) :=
  p.duties.map (·, p.failures)

/-- The duties ahead in a tour, each with the number of calls for it that failed. -/
def Tour.counted (t : Tour) : List (Duty × Nat) :=
  (owe t.parcel.ticket t.parcel.message t.ahead).map (·, t.parcel.failures)

/-- What the sending worker has yet to call, with the number of calls that failed. -/
def Generation.counted (g : Generation) : List (Duty × Nat) :=
  g.tour.toList.flatMap Tour.counted ++ g.outbox.entries.flatMap Parcel.counted ++
    g.waiting.flatMap (·.2.counted) ++ g.sleeping.flatMap (·.2.counted)

namespace Generation

section Places

variable {g : Generation} {who : Waiter} {p : Parcel} {y : Duty × Nat}

theorem counted_of_offer (h : y ∈ (g.offer who p).counted) : y ∈ g.counted ∨ y ∈ p.counted := by
  rcases g.offer_cases who p with ⟨-, heq⟩ | ⟨-, -, heq⟩ | ⟨-, -, heq⟩
  · exact Or.inl (heq ▸ h)
  · rw [heq] at h
    simp only [counted, Queue.push, List.flatMap_append, List.mem_append,
      List.flatMap_singleton] at h ⊢
    grind
  · rw [heq] at h
    simp only [counted, List.flatMap_append, List.mem_append, List.flatMap_singleton] at h ⊢
    grind

theorem counted_of_reinject {clock : Nat} (h : y ∈ (g.reinject clock p).counted) :
    y ∈ g.counted ∨ y ∈ p.counted := by
  rcases g.reinject_cases clock p with ⟨due, heq⟩ | heq
  · rw [heq] at h
    simp only [counted, List.flatMap_append, List.mem_append, List.flatMap_singleton] at h ⊢
    grind
  · exact counted_of_offer (heq ▸ h)

@[simp] theorem counted_release : (g.release who).counted = g.counted := by
  rw [counted, counted, release_tour, release_outbox, release_waiting, release_sleeping]

/-- The end of a visit leaves ahead what was ahead. -/
theorem counted_next (t : Tour) : t.next.toList.flatMap Tour.counted = t.counted :=
  t.flatMap_next (fun last ↦ by simp [Tour.counted, last]) rfl

end Places

variable {w : World} {g : Generation} {a : Action} {c : Change}

/-- What is to be called was to be called before, is fresh, or is put back after a call. -/
theorem Acts.counted_cases (h : g.Acts w a c) {y : Duty × Nat} (hy : y ∈ c.generation.counted) :
    y ∈ g.counted ∨ y.2 = 0 ∨ ∃ p ahead i, g.tour = some ⟨p, ahead, .retrying i⟩ ∧
      y = (⟨p.ticket, p.message, i⟩, p.failures + 1) := by
  cases h with
  | forward s targets written p parcel storing waits =>
    have hoffered : y ∈ (g.offer .storing p).counted := hy
    rcases counted_of_offer hoffered with hbefore | hnew
    · exact Or.inl hbefore
    · obtain ⟨x, -, rfl⟩ := List.mem_map.1 hnew
      exact Or.inr (Or.inl (by rw [parcel]; rfl))
  | reload ticket record rest next p parcel =>
    have hoffered : y ∈ (g.offer .reload p).counted := hy
    rcases counted_of_offer hoffered with hbefore | hnew
    · exact Or.inl hbefore
    · obtain ⟨x, -, rfl⟩ := List.mem_map.1 hnew
      exact Or.inr (Or.inl (by rw [parcel]; rfl))
  | enter who p rest front isOpen =>
    rw [counted_release] at hy
    refine Or.inl ?_
    simp only [counted, front, Queue.push, List.flatMap_append, List.flatMap_cons,
      List.mem_append] at hy ⊢
    grind
  | enterClosed who p rest front isClosed =>
    rw [counted_release] at hy
    refine Or.inl ?_
    simp only [counted, front, List.flatMap_cons, List.mem_append] at hy ⊢
    grind
  | cancel condemned waits =>
    refine Or.inl ?_
    simp only [counted, List.mem_append, List.mem_flatMap, List.mem_filter] at hy ⊢
    grind
  | forget p ahead target removal leaving db done forgets =>
    refine Or.inl ?_
    simpa only [counted, leaving, Option.toList_some, List.flatMap_singleton, counted_next] using hy
  | putBack p ahead target retrying =>
    rcases counted_of_reinject hy with hbefore | hnew
    · refine Or.inl ?_
      simpa only [counted, retrying, Option.toList_some, List.flatMap_singleton, counted_next]
        using hbefore
    · exact Or.inr (Or.inr ⟨p, ahead, target, retrying, List.mem_singleton.1 hnew⟩)
  | wake position due p sleeps isDue =>
    have hp : (due, p) ∈ g.sleeping := List.mem_of_getElem? sleeps
    refine Or.inl ?_
    rcases counted_of_offer hy with hbefore | hnew
    · simp only [counted, List.mem_append] at hbefore ⊢
      refine hbefore.imp_right fun hsleeps ↦ ?_
      obtain ⟨x, hx, hy⟩ := List.mem_flatMap.1 hsleeps
      exact List.mem_flatMap.2 ⟨x, List.mem_of_mem_eraseIdx hx, hy⟩
    · simp only [counted, List.mem_append]
      exact Or.inr (List.mem_flatMap.2 ⟨_, hp, hnew⟩)
  | take p rest idle front =>
    refine Or.inl ?_
    simpa [counted, idle, front, Tour.counted, Parcel.counted, Parcel.duties] using hy
  | attempt p target ahead next =>
    refine Or.inl ?_
    simp [counted, next, Tour.counted] at hy ⊢
    grind
  | _ =>
    refine Or.inl ?_
    simp_all [counted, abortSending, Queue.abandon, Tour.counted]

/-- An action calls no peer, or the next one of the tour. -/
theorem Acts.attempt_cases (h : g.Acts w a c) : (∀ k m i f, .attempt k m i f ∉ c.seen) ∨
    ∃ p target ahead, g.tour = some ⟨p, target :: ahead, .between⟩ ∧
      c.seen = [.attempt p.ticket p.message target p.failures] := by
  cases h with
  | attempt p target ahead next => exact Or.inr ⟨p, target, ahead, next, rfl⟩
  | _ =>
    refine Or.inl fun k m i f hmem ↦ ?_
    simp at hmem

/-- What an action forwards is what the storing worker wrote, or the next record. -/
theorem Acts.forwarded_cases (h : g.Acts w a c) {p : Parcel} (hp : .forwarded p ∈ c.seen) :
    p.consignment ∈ g.storing.consigned ∨ ∃ entry ∈ g.reload.ahead,
      p.ticket = entry.1 ∧ p.message = entry.2.message ∧ p.targets = entry.2.targets := by
  cases h with
  | forward s targets written p' parcel storing waits =>
    obtain rfl := Observation.forwarded.inj (List.mem_singleton.1 hp)
    exact Or.inl (by simp [written, parcel, Parcel.track, Parcel.consignment])
  | reload ticket record rest next p' parcel =>
    obtain rfl := Observation.forwarded.inj (List.mem_singleton.1 hp)
    refine Or.inr ⟨(ticket, record), by simp [next], ?_⟩
    rw [parcel]
    exact ⟨rfl, rfl, rfl⟩
  | _ => simp at hp

end Generation

/-- Each retry that is kept repeats a call, and so does each in the trace. -/
structure Repeating (g : Generation) (tr : List Observation) : Prop where
  counted : ∀ x f, (x, f + 1) ∈ g.counted → .attempt x.ticket x.message x.target f ∈ tr
  trace : RetriesFollow tr

theorem repeating_invariant :
    LocalInvariant (fun _ ↦ True) (fun _ g tr ↦ Visited g tr) (fun _ g tr ↦ Repeating g tr) where
  start first settings records := by
    refine ⟨?_, ?_⟩
    · simp [Generation.counted, newGeneration, Queue.make]
    · rw [← List.append_nil (List.reverse _)]
      refine RetriesFollow.later (fun _ _ _ _ _ _ htr ↦ ?_) _ (by simp [reloadSeen])
      simp at htr
  later _ h := h
  refuse m targets closed _ ih := by
    refine ⟨fun x f hx ↦ ?_, ih.trace.later [_, _] (by simp)⟩
    exact List.mem_append_right [_, _] (ih.counted x f hx)
  call m targets isOpen inUse _ ih := by
    refine ⟨fun x f hx ↦ ?_, ih.trace.later [_] (by simp)⟩
    exact List.mem_append_right [_] (ih.counted x f hx)
  act := by
    intro w g tr a c _ hacts hvisited ih
    refine ⟨fun x f hx ↦ ?_, ?_⟩
    · rcases hacts.counted_cases hx with hbefore | hfresh | ⟨p, ahead, i, retrying, heq⟩
      · exact List.mem_append_right _ (ih.counted x f hbefore)
      · contradiction
      · obtain ⟨rfl, hf⟩ := Prod.mk.inj heq
        rw [Nat.succ.inj hf]
        exact List.mem_append_right _ (hvisited.attempt_mem retrying rfl)
    · rcases hacts.attempt_cases with hnone | ⟨p, target, ahead, next, hseen⟩
      · exact ih.trace.later _ fun k m i f hmem ↦ hnone k m i f (List.mem_reverse.1 hmem)
      · rw [hseen]
        refine ih.trace.attempt fun f hf ↦ ih.counted ⟨p.ticket, p.message, target⟩ f ?_
        simp [Generation.counted, next, Tour.counted, hf]

/-! ### Reloaded records -/

/-- What was forwarded under the ticket of a record is the record, and whatever was attempted was
due. -/
structure Exact (tr : List Observation) : Prop where
  forwarded : ∀ p, .forwarded p ∈ tr → p.ticket ∈ tr.filterMap reloaded? →
    ∃ record, .reloaded p.ticket record ∈ tr ∧ p.message = record.message ∧
      p.targets = record.targets
  attempted : ∀ k m i f, .attempt k m i f ∈ tr → ⟨k, m, i⟩ ∈ tr.flatMap due

theorem exact_invariant :
    LocalInvariant (fun _ ↦ True)
      (fun _ g tr ↦ Owed g tr ∧ Consigned g tr ∧
        ∀ x ∈ g.storing.consigned, x.ticket ∉ tr.filterMap reloaded?)
      (fun _ _ tr ↦ Exact tr) where
  start first settings records := by
    constructor <;> simp [reloadSeen]
  later _ h := h
  refuse m targets closed _ ih := by
    constructor
    · simpa [reloaded?, List.filterMap_cons] using ih.forwarded
    · simpa [due] using ih.attempted
  call m targets isOpen inUse _ ih := by
    constructor
    · simpa [reloaded?, List.filterMap_cons] using ih.forwarded
    · simpa [due] using ih.attempted
  act := by
    rintro w g tr a c - hacts ⟨howed, hconsigned, hwritten⟩ ih
    refine ⟨fun p hp hreloaded ↦ ?_, fun k m i f hattempt ↦ ?_⟩
    · rw [reloaded?_seen hacts] at hreloaded
      rcases List.mem_append.1 hp with hnow | hbefore
      · rcases hacts.forwarded_cases (List.mem_reverse.1 hnow) with hp | ⟨entry, hentry, hk, hm, ht⟩
        · exact absurd hreloaded (hwritten _ hp)
        · exact ⟨entry.2, List.mem_append_right _ (hk ▸ hconsigned.ahead entry hentry), hm, ht⟩
      · obtain ⟨record, hrecord, hm, ht⟩ := ih.forwarded p hbefore hreloaded
        exact ⟨record, List.mem_append_right _ hrecord, hm, ht⟩
    · rw [List.flatMap_append]
      refine List.mem_append_right _ ?_
      rcases List.mem_append.1 hattempt with hnow | hbefore
      · rcases hacts.attempt_cases with hnone | ⟨p, target, ahead, next, hseen⟩
        · exact absurd (List.mem_reverse.1 hnow) (hnone k m i f)
        · rw [hseen] at hnow
          obtain ⟨rfl, rfl, rfl, -⟩ := Observation.attempt.inj (List.mem_singleton.1 hnow)
          exact howed.mem_due (g.mem_pending_of_next next)
      · exact ih.attempted k m i f hbefore

section Reached

variable {may : World → Move → Prop} {d : Directory} {db : Store.Database} {v w : World} {n : Nat}
  {g : Generation}

theorem repeating (hr : Reaches may (initial d db) w) (hg : w.generations[n]? = some g) :
    Repeating g (w.traceOf n) :=
  repeating_invariant.of_reaches (fun _ ↦ trivial) (fun hv _ _ hg ↦ visited_of_reaches hv hg) hr hg

theorem exact_of_reaches (hr : Reaches may (initial d db) w) (hg : w.generations[n]? = some g) :
    Exact (w.traceOf n) :=
  exact_invariant.of_reaches (fun _ ↦ trivial)
    (fun hv _ _ hg ↦ ⟨owed hv hg, consigned hv hg, not_reloaded_of_written hv hg⟩) hr hg

/-- A record that was loaded keeps its ticket, and no other record has it. -/
theorem record_unique {k : Nat} {record record' : Store.Record} (hr : Reaches may (initial d db) w)
    (h : .reloaded k record ∈ w.traceOf n) (h' : .reloaded k record' ∈ w.traceOf n) :
    record = record' := by
  have hentry := eq_of_issued hr (mem_traceOf.1 h) (mem_traceOf.1 h') rfl rfl
  exact (Observation.reloaded.inj (congrArg Prod.snd hentry)).2

/-- Nothing is forwarded twice to different peers. -/
theorem forwardedTo_eq {p : Parcel} (hr : Reaches may (initial d db) w)
    (hg : w.generations[n]? = some g) (hp : .forwarded p ∈ w.traceOf n) :
    forwardedTo (w.traceOf n) p.ticket = p.targets := by
  refine targetsFor_of_mem (x := p.consignment) (mem_history.2 ⟨_, hp, rfl⟩)
    fun y hy hticket ↦ ?_
  obtain ⟨o, ho, heq⟩ := mem_history.1 hy
  cases o with
  | forwarded p' =>
    obtain rfl := Option.some.inj heq
    replace hticket : p'.ticket = p.ticket := hticket
    show p'.targets = p.targets
    by_cases hreloaded : p.ticket ∈ (w.traceOf n).filterMap reloaded?
    · obtain ⟨record, hrecord, -, htargets⟩ := (exact_of_reaches hr hg).forwarded p hp hreloaded
      obtain ⟨record', hrecord', -, htargets'⟩ :=
        (exact_of_reaches hr hg).forwarded p' ho (hticket ▸ hreloaded)
      obtain rfl := record_unique hr hrecord (hticket ▸ hrecord')
      rw [htargets, htargets']
    · have hbeside : ∀ q, .forwarded q ∈ w.traceOf n → q.ticket = p.ticket → q.consignment ∈
          history (forwardedBeside? ((w.traceOf n).filterMap reloaded?)) (w.traceOf n) :=
        fun q hq hsame ↦ mem_history.2 ⟨_, hq, if_neg (hsame ▸ hreloaded)⟩
      have hsame := List.inj_on_of_nodup_map (submittedTickets_nodup hr hg)
        (hbeside p' ho hticket) (hbeside p hp rfl) hticket
      exact congrArg Consignment.targets hsame
  | _ => cases heq

/-- The store is not asked to write a record that was loaded. -/
theorem not_written_of_reloaded {k n' : Nat} {record : Store.Record} {m : Message}
    {targets : List Instance} {done : Bool} (hr : Reaches may (initial d db) w)
    (h : (n, .reloaded k record) ∈ w.trace) : (n', .write k m targets done) ∉ w.trace := by
  intro hwrite
  obtain ⟨s, hs, hkey⟩ := accepted_of_settled hr hwrite rfl
  obtain ⟨c, hc, hticket⟩ := called_of_accepted hr hs
  have hissued : issued? (.called c) = some k :=
    congrArg some (hticket.trans (congrArg Prod.fst hkey))
  have hentry := eq_of_issued hr h hc rfl hissued
  cases hentry

/-- What was attempted under the ticket of a record is the record, for one of its peers. -/
theorem of_attempt_reloaded {k f : Nat} {record : Store.Record} {m : Message} {i : Instance}
    (hr : Reaches may (initial d db) w) (hg : w.generations[n]? = some g)
    (h : .reloaded k record ∈ w.traceOf n) (hattempt : .attempt k m i f ∈ w.traceOf n) :
    m = record.message ∧ i ∈ record.targets := by
  rcases mem_due ((exact_of_reaches hr hg).attempted k m i f hattempt) with
    ⟨s, targets, hs, hkey, -⟩ | ⟨record', hrecord', hmessage, hi⟩
  · -- a submission has the ticket of a call
    have hticket : s.ticket = k := congrArg Prod.fst hkey
    have hnot := not_reloaded_of_accepted (traceOf_issued_nodup hr n) (calls_accounted hr hg)
      ((in_line hr hg).processed_mem hs)
    exact absurd (mem_reloaded.2 ⟨record, hticket ▸ h⟩) hnot
  · obtain rfl := record_unique hr h hrecord'
    exact ⟨hmessage.symm, hi⟩

/-- What is seen of a generation that has started has no further record in it. -/
theorem history_record_of_follows {m : Move} {next : Nat} {g' : Generation}
    {seen tr : List Observation} (h : w.Follows n m g next g' seen) :
    history record? (seen ++ tr) = history record? tr := by
  cases h with
  | idle _ _ _ later => rfl
  | refuse _ m targets closed inUse => simp [record?]
  | call _ m targets isOpen inUse => simp [record?]
  | act _ a c acts => rw [history_seen, record?_of_acts acts, List.append_nil]

theorem traceOf_start (v : World) (settings : Settings) (call : StoreCall) :
    (v.start settings call).traceOf v.generations.length =
      (reloadSeen (numbered v.nextTicket (v.load call).1)).reverse ++
        v.traceOf v.generations.length := by
  have htrace : (v.start settings call).trace =
      ((reloadSeen (numbered v.nextTicket (v.load call).1)).map
        (v.generations.length, ·)).reverse ++ v.trace := by
    rw [reloadSeen, List.map_map]
    rfl
  rw [traceOf, htrace, seenOf_append, seenOf_map_self, ← traceOf]

/-- A generation that was started has reloaded what was loaded at its start. -/
theorem started (hv : Reaches may (initial d db) v) {settings : Settings} {call : StoreCall}
    (hw : Reaches may (v.start settings call) w) :
    (∃ g, w.generations[v.generations.length]? = some g) ∧
      history record? (w.traceOf v.generations.length) =
        (numbered v.nextTicket (v.load call).1).map fun r ↦ ⟨r.1, r.2.message, r.2.targets⟩ := by
  refine Reaches.induct (P := fun w ↦ (∃ g, w.generations[v.generations.length]? = some g) ∧
    history record? (w.traceOf v.generations.length) =
      (numbered v.nextTicket (v.load call).1).map fun r ↦ ⟨r.1, r.2.message, r.2.targets⟩) hw
    ⟨⟨_, List.getElem?_concat_length⟩, ?_⟩ fun {u u' m} _ _ hmove ih ↦ ?_
  · rw [traceOf_start, traceOf_length_eq_nil hv, List.append_nil, history, List.reverse_reverse,
      reloadSeen, List.filterMap_map, ← List.filterMap_eq_map]
    rfl
  · obtain ⟨⟨g, hg⟩, hrecords⟩ := ih
    obtain ⟨g', seen, hg', htrace, hfollows⟩ := hmove.exists_follows hg
    exact ⟨⟨g', hg'⟩, by rw [htrace, history_record_of_follows hfollows, hrecords]⟩

/-- **What is reloaded goes first, and nothing overtakes.** The first attempts of a generation are
a beginning of this list: the records that were loaded, each for its peers, and behind them the
submissions in the order of acceptance, each for the peers that it was forwarded to. Every other
attempt repeats one that was made before. A record is forwarded for its peers and nobody else, and
is not written to the store again. -/
theorem first_attempts_in_order (hv : Reachable (initial d db) v) (settings : Settings)
    (call : StoreCall) (hw : Reachable (v.start settings call) w) :
    let records := numbered v.nextTicket (v.load call).1
    let tr := w.traceOf v.generations.length
    history firstAttempt? tr <+:
        (records.flatMap fun r ↦ owe r.1 r.2.message r.2.targets) ++
          ((history accepted? tr).flatMap fun s ↦
            owe s.ticket s.message (forwardedTo tr s.ticket)) ∧
      RetriesFollow tr ∧
      (∀ p, .forwarded p ∈ tr → forwardedTo tr p.ticket = p.targets) ∧
      ∀ r ∈ records,
        (∀ p, .forwarded p ∈ tr → p.ticket = r.1 →
          p.message = r.2.message ∧ p.targets = r.2.targets) ∧
        (∀ m i f, .attempt r.1 m i f ∈ tr → m = r.2.message ∧ i ∈ r.2.targets) ∧
        ∀ n m targets done, (n, .write r.1 m targets done) ∉ w.trace := by
  intro records tr
  have hr : Reachable (initial d db) w :=
    (Reaches.step (.start settings call) hv trivial rfl).trans hw
  obtain ⟨⟨g, hg⟩, hrecords⟩ := started hv hw
  have hreloaded : ∀ r ∈ records, .reloaded r.1 r.2 ∈ tr := by
    intro r hmem
    refine mem_traceOf.2 (hw.trace_suffix.subset (mem_traceOf.1 ?_))
    rw [traceOf_start]
    exact List.mem_append_left _ (List.mem_reverse.2 (List.mem_map_of_mem hmem))
  refine ⟨?_, (repeating hr hg).trace, fun p hp ↦ forwardedTo_eq hr hg hp, fun r hmem ↦
    ⟨fun p hp hticket ↦ ?_, fun m i f hattempt ↦
      of_attempt_reloaded hr hg (hreloaded r hmem) hattempt,
      fun n m targets done ↦ not_written_of_reloaded hr (mem_traceOf.1 (hreloaded r hmem))⟩⟩
  · have hprefix := (aligned hr hg).attempted
    rw [toAttempt, ← flatMap_accepted hr hg, hrecords, List.flatMap_map] at hprefix
    exact hprefix
  · obtain ⟨record, hrecord, hm, ht⟩ := (exact_of_reaches hr hg).forwarded p hp
      (mem_reloaded.2 ⟨r.2, hticket ▸ hreloaded r hmem⟩)
    obtain rfl := record_unique hr (hreloaded r hmem) (hticket ▸ hrecord)
    exact ⟨hm, ht⟩

end Reached

/-- The first of two messages reached one of its two peers, the second one nobody. -/
def unfinishedMoves : List Move :=
  let submit (id : String) : List Instance → Move := .submit 0 { (default : Message) with id }
  [.start {} .works, submit "1" [⟨"a", "http://a"⟩, ⟨"b", "http://b"⟩],
    submit "2" [⟨"a", "http://a"⟩], .act 0 (.arrive 0), .act 0 .accept, .act 0 (.arrive 1),
    .act 0 .accept, .act 0 .receive, .act 0 (.store .works), .act 0 .forward, .act 0 .receive,
    .act 0 (.store .works), .act 0 .forward, .act 0 .take, .act 0 .attempt,
    .act 0 (.answer .delivers), .act 0 .announce, .act 0 (.forget .works), .act 0 .drop]

/-- Both are reloaded through an outbox that holds one parcel. The first one fails, and its retry
overtakes a new submission. -/
def reloadedMoves : List Move :=
  [.submit 1 { (default : Message) with id := "3" } [⟨"b", "http://b"⟩], .act 1 (.arrive 4),
    .act 1 .accept, .act 1 .reload, .act 1 .reload, .act 1 .take, .act 1 .enter, .act 1 .attempt,
    .act 1 (.answer .fails), .act 1 .lookUp, .act 1 .putBack, .act 1 (.wake 0), .act 1 .receive,
    .act 1 (.store .works), .act 1 .forward, .act 1 .take, .act 1 .enter, .act 1 .attempt,
    .act 1 (.answer .delivers), .act 1 .announce, .act 1 (.forget .works), .act 1 .take,
    .act 1 .enter, .act 1 .attempt, .act 1 (.answer .delivers), .act 1 .announce,
    .act 1 (.forget .works), .act 1 .take, .act 1 .attempt]

theorem first_attempts_in_order_of_restart :
    ∃ v w, Reachable (initial ⟨[]⟩ .fresh) v ∧
      Reachable (v.start { sendCapacity := 1, retryDelay := 0 } .works) w ∧
      v.generations.length = 1 ∧
      (history firstAttempt? (w.traceOf 1)).map (fun x ↦ (x.message.id, x.target.uri)) =
        [("1", "http://b"), ("2", "http://a"), ("3", "http://b")] ∧
      history firstAttempt? (w.traceOf 1) <+:
        ((numbered v.nextTicket (v.load .works).1).flatMap fun r ↦
          owe r.1 r.2.message r.2.targets) ++
          ((history accepted? (w.traceOf 1)).flatMap fun s ↦
            owe s.ticket s.message (forwardedTo (w.traceOf 1) s.ticket)) := by
  have hrun : ((initial ⟨[]⟩ .fresh).run (fun _ _ ↦ True) unfinishedMoves).any (fun v ↦
      v.generations[0]?.any fun _ ↦ ((v.start { sendCapacity := 1, retryDelay := 0 } .works).run
        (fun _ _ ↦ True) reloadedMoves).any fun w ↦ w.generations[1]?.any fun _ ↦
          v.generations.length = 1 ∧
            (history firstAttempt? (w.traceOf 1)).map (fun x ↦ (x.message.id, x.target.uri)) =
              [("1", "http://b"), ("2", "http://a"), ("3", "http://b")]) = true := by
    decide +kernel
  obtain ⟨v, g, hv, -, hsecond⟩ := exists_of_run hrun
  obtain ⟨w, g', hw, -, htest⟩ := exists_of_run hsecond
  obtain ⟨hlength, hattempts⟩ := of_decide_eq_true htest
  have horder := (first_attempts_in_order hv { sendCapacity := 1, retryDelay := 0 } .works hw).1
  rw [hlength] at horder
  exact ⟨v, w, hv, hw, hlength, hattempts, horder⟩

end PeerRelay.Delivery
