import PeerRelay.Proofs.Delivery.Rewriting
import PeerRelay.Proofs.Delivery.Shutdown
import PeerRelay.Proofs.Delivery.Tracking
import PeerRelay.Proofs.Delivery.WriteAhead

/-!
# What a drained pipeline leaves of a submission

A storing worker that ended by itself asked the store once to write a submission, for the peers of
the submission (`write_of_drained`). If the store did, the message is there for each of its peers
until the peer took it, as long as its id is not submitted again and the known peers stay the same,
so that none is given up (`stored_or_taken_of_write`). If the store did not, the message was
forwarded from memory and nothing of it is stored, so that it is lost for each peer that did not
take it before the sending worker was stopped (`not_stored_of_unwritten`).
-/

namespace PeerRelay.Delivery

open Observation World

/-! ### Calls and what is accepted of them -/

namespace Generation

variable {w : World} {g : Generation} {a : Action} {c : Change}

/-- Who arrives did so before, who queues up arrived, and who is accepted queued up. -/
theorem Acts.of_call (h : g.Acts w a c) (s : Submission) :
    (s ∈ c.generation.arriving → s ∈ g.arriving) ∧
      (.deliver s ∈ c.generation.callers → .deliver s ∈ g.callers ∨ s ∈ g.arriving) ∧
      (.accepted s ∈ c.seen → .deliver s ∈ g.callers) := by
  cases h with
  | arrive s' arriving =>
    refine ⟨List.mem_of_mem_erase, fun hqueues ↦ ?_, by simp⟩
    rcases List.mem_append.1 hqueues with hbefore | hnow
    · exact Or.inl hbefore
    · cases List.mem_singleton.1 hnow
      exact Or.inr arriving
  | giveUp ticket waits =>
    refine ⟨List.mem_of_mem_filter, fun hqueues ↦ Or.inl (List.mem_of_mem_filter hqueues), by simp⟩
  | finish closed notStopped outcome ended =>
    exact ⟨id, fun hqueues ↦ Or.inl (List.mem_of_mem_filter hqueues), by simp⟩
  | expire closed notStopped =>
    exact ⟨id, fun hqueues ↦ Or.inl (List.mem_of_mem_filter hqueues), by simp⟩
  | _ => simp_all [abortSending]

/-- What is settled was held; the store was asked to write it for its recipients, or it has none. -/
theorem Acts.of_settled (h : g.Acts w a c) {o : Observation} {x : Nat × Message} (ho : o ∈ c.seen)
    (hx : o.settled? = some x) : ∃ s, g.storing = .holding s ∧ s.key = x ∧
      (s.recipients w.directory = [] ∨
        ∃ done, o = .write s.ticket s.message (s.recipients w.directory) done) := by
  cases h with
  | storeForNobody s call holding nobody =>
    obtain rfl := List.mem_singleton.1 ho
    exact ⟨s, holding, Option.some.inj hx, Or.inl nobody⟩
  | storeCrashes s holding somebody =>
    obtain rfl := List.mem_singleton.1 ho
    exact ⟨s, holding, Option.some.inj hx, Or.inr ⟨false, rfl⟩⟩
  | storeFails s call holding somebody =>
    simp only [List.mem_cons, List.not_mem_nil, or_false] at ho
    rcases ho with rfl | rfl
    · exact ⟨s, holding, Option.some.inj hx, Or.inr ⟨false, rfl⟩⟩
    · simp [settled?, somebody] at hx
  | storeWorks s record db holding somebody written =>
    obtain ⟨rfl, -⟩ := Store.write_eq_ok written
    simp only [List.cons_append, List.mem_cons, List.mem_append, List.mem_map, List.not_mem_nil,
      or_false] at ho
    rcases ho with rfl | ⟨i, -, rfl⟩ | rfl
    · exact ⟨s, holding, Option.some.inj hx, Or.inr ⟨true, rfl⟩⟩
    · cases hx
    · simp [settled?, Store.distinctByUri_ne_nil somebody] at hx
  | _ =>
    -- no other action settles anything
    exact absurd (List.mem_filterMap.2 ⟨o, ho, hx⟩)
      (by simp [settled?, List.filterMap_cons, Function.comp_def])

/-- Who is given up was known when its parcel was put together, and is unknown now. -/
theorem Acts.of_dropped (h : g.Acts w a c) {k : Nat} {m : Message} {i : Instance}
    (hdropped : .dropped k m i ∈ c.seen) : ∃ p ahead, g.tour = some ⟨p, ahead, .failed i⟩ ∧
      p.wasKnown i.uri = true ∧ w.directory.contains i.uri = false := by
  cases h with
  | giveUpPeer p ahead target failed known unknown =>
    simp at hdropped
    obtain ⟨-, -, rfl⟩ := hdropped
    exact ⟨p, ahead, failed, known, unknown⟩
  | _ => simp at hdropped

end Generation

/-- Every call that arrives, queues up or was accepted was made as it is. -/
structure Called (g : Generation) (tr : List Observation) : Prop where
  arriving : ∀ s ∈ g.arriving, .called s ∈ tr
  queueing : ∀ s, .deliver s ∈ g.callers → .called s ∈ tr
  accepted : ∀ s, .accepted s ∈ tr → .called s ∈ tr

theorem called_invariant :
    LocalInvariant (fun _ ↦ True) (fun _ _ _ ↦ True) (fun _ g tr ↦ Called g tr) where
  start first settings records := by
    constructor <;> simp [newGeneration, reloadSeen]
  later _ h := h
  refuse m targets closed _ ih := by
    refine ⟨fun s hs ↦ ?_, fun s hs ↦ ?_, fun s hs ↦ ?_⟩
    · simp [ih.arriving s hs]
    · simp [ih.queueing s hs]
    · simp [ih.accepted s (by simpa using hs)]
  call m targets isOpen inUse _ ih := by
    refine ⟨fun s hs ↦ ?_, fun s hs ↦ ?_, fun s hs ↦ ?_⟩
    · rcases List.mem_append.1 hs with hbefore | hnow
      · exact List.mem_cons_of_mem _ (ih.arriving s hbefore)
      · exact List.mem_singleton.1 hnow ▸ List.mem_cons_self
    · exact List.mem_cons_of_mem _ (ih.queueing s hs)
    · exact List.mem_cons_of_mem _ (ih.accepted s (by simpa using hs))
  act := by
    intro w g tr a c _ hacts _ ih
    refine ⟨fun s hs ↦ ?_, fun s hs ↦ ?_, fun s hs ↦ ?_⟩
    · exact List.mem_append_right _ (ih.arriving s ((hacts.of_call s).1 hs))
    · rcases (hacts.of_call s).2.1 hs with hqueued | harrived
      · exact List.mem_append_right _ (ih.queueing s hqueued)
      · exact List.mem_append_right _ (ih.arriving s harrived)
    · rcases List.mem_append.1 hs with hnow | hbefore
      · exact List.mem_append_right _
          (ih.queueing s ((hacts.of_call s).2.2 (List.mem_reverse.1 hnow)))
      · exact List.mem_append_right _ (ih.accepted s hbefore)

section Reached

variable {may : World → Move → Prop} {d : Directory} {db : Store.Database} {w : World} {n : Nat}
  {g : Generation} {s : Submission} {i : Instance}

/-- What was accepted is a call as it was made. -/
theorem called_of_mem_accepted (hr : Reaches may (initial d db) w)
    (hs : (n, .accepted s) ∈ w.trace) : (n, .called s) ∈ w.trace := by
  obtain ⟨g, hg⟩ := exists_generation hr hs
  have hcalled := called_invariant.of_reaches (fun _ ↦ trivial) (fun _ _ _ _ ↦ trivial) hr hg
  exact mem_traceOf.1 (hcalled.accepted s (mem_traceOf.2 hs))

/-! ### The write of a submission -/

/-- What a storing worker that is not broken off holds was accepted as it is. -/
theorem accepted_of_holding (hr : Reaches may (initial d db) w) (hg : w.generations[n]? = some g)
    (holding : g.storing = .holding s) : (n, .accepted s) ∈ w.trace := by
  have hwhole : ¬ g.storing.brokenOff := by simp [holding, Storing.brokenOff]
  have hheld : s ∈ g.held := by simp [Generation.held, holding]
  exact mem_accepted.1 ((accepted_perm hr hg hwhole).mem_iff.2 (List.mem_append_left _ hheld))

/-- What settles a submission for some peers is that the store is asked to write it for them. -/
theorem write_of_settled {o : Observation} (hr : Reaches may (initial d db) w)
    (hs : (n, .accepted s) ∈ w.trace) (htargets : s.targets ≠ []) {n' : Nat}
    (ho : (n', o) ∈ w.trace) (hkey : o.settled? = some s.key) :
    n' = n ∧ ∃ done, o = .write s.ticket s.message s.targets done := by
  have hinside : o.isOutside = false := by
    cases o <;> first | rfl | cases hkey
  obtain ⟨u, g, a, c, hmoment, hseen⟩ := exists_moment_of_mem hr (mem_traceOf.2 ho) hinside
  obtain ⟨s', holding, hkey', hwrite⟩ := hmoment.acts.of_settled hseen hkey
  obtain ⟨u', hmove, -, hlater⟩ := hmoment.goesOn
  -- what was held then was accepted, and the ticket tells that it is the same submission
  have hs' : (n', .accepted s') ∈ w.trace :=
    hlater.trace_suffix.subset ((moves_of_move hmove).trace_suffix.subset
      (accepted_of_holding hmoment.reached hmoment.generation holding))
  obtain ⟨rfl, rfl⟩ := accepted_unique hr hs' hs (congrArg Prod.fst hkey')
  have hrecipients : s'.recipients u.directory = s'.targets := by
    rw [Submission.recipients, if_neg (by simpa using htargets)]
  rw [hrecipients] at hwrite
  exact ⟨rfl, hwrite.resolve_left htargets⟩

/-- A storing worker that ended by itself asked the store to write what was accepted. -/
theorem write_of_drained (hr : Reaches may (initial d db) w) (hs : (n, .accepted s) ∈ w.trace)
    (htargets : s.targets ≠ []) (hdrained : (n, .stopped .drained) ∈ w.trace) :
    ∃ done, (n, .write s.ticket s.message s.targets done) ∈ w.trace := by
  obtain ⟨g, hg⟩ := exists_generation hr hs
  have hended := (ending_of_reaches hr hg).drained (mem_traceOf.2 hdrained)
  have honce := (settled_once hr hg hended).2 s hs
  obtain ⟨⟨n', o⟩, ho, hkey⟩ := List.mem_filterMap.1 (List.count_pos_iff.1
    (show 0 < (w.trace.filterMap (·.2.settled?)).count s.key by omega))
  obtain ⟨rfl, done, rfl⟩ := write_of_settled hr hs htargets ho hkey
  exact ⟨done, ho⟩

/-- A submission is settled by one observation. -/
theorem eq_of_settled {o o' : Observation} {x x' : Nat × Message}
    (hr : Reaches may (initial d db) w) (ho : (n, o) ∈ w.trace) (ho' : (n, o') ∈ w.trace)
    (hx : o.settled? = some x) (hx' : o'.settled? = some x') (hticket : x.1 = x'.1) : o = o' := by
  obtain ⟨g, hg⟩ := exists_generation hr ho
  refine eq_of_filterMap_nodup (f := settledTicket?)
    (settledTickets_nodup (hr.mono fun _ _ _ ↦ trivial) hg) (mem_traceOf.2 ho) (mem_traceOf.2 ho')
    (b := x.1) ?_ ?_
  · rw [settledTicket?, hx, Option.map_some]
  · rw [settledTicket?, hx', Option.map_some, hticket]

/-- A submission is settled at one point of the trace. -/
theorem not_settled_later {more before : List (Nat × Observation)} {n' : Nat} {o : Observation}
    (hr : Reaches may (initial d db) w) (hs : (n, .accepted s) ∈ w.trace)
    (htrace : w.trace = more ++ before) (ho : (n', o) ∈ before) (hkey : o.settled? = some s.key) :
    ∀ entry ∈ more, entry.2.settled? ≠ some s.key := by
  intro entry hentry hentryKey
  obtain ⟨g, hg⟩ := exists_generation hr hs
  have hsettled := (held_accounted hr hg).settled s.key
  have haccepted := List.nodup_iff_count_le_one.1 (acceptedKeys_nodup hr hg) s.key
  have hsplit := count_settled hr hs
  rw [htrace, List.filterMap_append, List.count_append] at hsplit
  have hnow : 0 < (more.filterMap (·.2.settled?)).count s.key :=
    List.count_pos_iff.2 (List.mem_filterMap.2 ⟨entry, hentry, hentryKey⟩)
  have hbefore : 0 < (before.filterMap (·.2.settled?)).count s.key :=
    List.count_pos_iff.2 (List.mem_filterMap.2 ⟨(n', o), ho, hkey⟩)
  omega

/-! ### Peers that stay the same -/

/-- No peer is registered or taken out. -/
def KeepsPeers (may : World → Move → Prop) : Prop :=
  ∀ w, (∀ i, ¬ may w (.register i)) ∧ ∀ uri, ¬ may w (.unregister uri)

theorem directory_eq (hkeeps : KeepsPeers may) (hr : Reaches may (initial d db) w) :
    w.directory = d := by
  refine Reaches.induct (P := fun w ↦ w.directory = d) hr rfl fun {v v' m} _ hmay hmove ih ↦ ?_
  cases hmove with
  | register i => exact absurd hmay ((hkeeps v).1 i)
  | unregister uri => exact absurd hmay ((hkeeps v).2 uri)
  | _ => exact ih

/-- As long as the peers stay the same none of them is given up. -/
theorem not_dropped {k : Nat} {m : Message} (hkeeps : KeepsPeers may)
    (hr : Reaches may (initial d db) w) : (n, .dropped k m i) ∉ w.trace := by
  intro hdropped
  obtain ⟨u, g, a, c, hmoment, hseen⟩ := exists_moment_of_mem hr (mem_traceOf.2 hdropped) rfl
  obtain ⟨q, ahead, failed, known, unknown⟩ := hmoment.acts.of_dropped hseen
  have htraced := traced (hmoment.reached.mono fun _ _ _ ↦ trivial) hmoment.generation
  have hi : i ∈ q.targets := htraced.course _ failed List.mem_cons_self
  -- the note on the peer is the directory when the parcel was put together, which is that of now
  obtain ⟨p, hp, hfrom⟩ := htraced.origin _ (Generation.mem_carried_of_tour failed)
  obtain ⟨v, g', a', c', hmoment', hforwarded⟩ := exists_moment_of_mem hmoment.reached hp rfl
  obtain ⟨k', m', targets, rfl⟩ := hmoment'.acts.track_of_forwarded hforwarded
  have hi' : i ∈ targets := hfrom.targets hi
  rw [hfrom.known i hi, Parcel.wasKnown_track v.directory k' m' hi',
    directory_eq hkeeps hmoment'.reached, ← directory_eq hkeeps hmoment.reached, unknown] at known
  contradiction

/-! ### What is left of a submission -/

/-- A peer took a message with the id. -/
def Taken (trace : List (Nat × Observation)) (id uri : String) : Prop :=
  ∃ n k m i, (n, .answered k m i true) ∈ trace ∧ m.id = id ∧ i.uri = uri

/-- Nothing else was accepted under the id of a submission. -/
def OnlyUnderId (s : Submission) (trace : List (Nat × Observation)) : Prop :=
  ∀ n s', (n, .accepted s') ∈ trace → s'.message.id = s.message.id → s' = s

/-- What was stored under the id of a submission is the submission. -/
theorem OnlyUnderId.key_eq {o : Observation} {x : Nat × Message} {n' : Nat}
    (honly : OnlyUnderId s w.trace) (hr : Reaches may (initial d db) w) (ho : (n', o) ∈ w.trace)
    (hx : o.settled? = some x) (hid : x.2.id = s.message.id) : o.settled? = some s.key := by
  obtain ⟨s', hs', rfl⟩ := accepted_of_settled hr ho hx
  exact honly n' s' hs' hid ▸ hx

/-- A submission that was stored is the last one that is stored under its id. -/
theorem OnlyUnderId.not_written_later {more before : List (Nat × Observation)}
    (honly : OnlyUnderId s w.trace) (hr : Reaches may (initial d db) w)
    (hs : (n, .accepted s) ∈ w.trace) (htrace : w.trace = more ++ before)
    (hwrite : (n, .write s.ticket s.message s.targets true) ∈ before) :
    ∀ entry ∈ more, entry.2.writtenId? ≠ some s.message.id := by
  rintro ⟨n', o⟩ hentry hid
  cases o with
  | write k m l done =>
    cases done with
    | false => cases hid
    | true =>
      have hmem : (n', .write k m l true) ∈ w.trace := htrace ▸ List.mem_append_left _ hentry
      have hkey := honly.key_eq hr hmem rfl (Option.some.inj hid)
      exact not_settled_later hr hs htrace hwrite rfl _ hentry hkey
  | _ => cases hid

/-- Who is done with a message and is not given up took it. -/
theorem taken_of_finished {trace : List (Nat × Observation)} {id uri : String}
    (hkeeps : KeepsPeers may) (hr : Reaches may (initial d db) w) (htrace : trace ⊆ w.trace)
    (h : Finished trace id uri) : Taken w.trace id uri := by
  obtain ⟨⟨n, o⟩, hentry, ho⟩ := h
  cases o with
  | answered k m i taken =>
    cases taken with
    | false => cases ho
    | true =>
      obtain ⟨hid, huri⟩ := Prod.mk.inj (Option.some.inj ho)
      exact ⟨n, k, m, i, htrace hentry, hid, huri⟩
  | dropped k m i => exact absurd (htrace hentry) (not_dropped hkeeps hr)
  | _ => cases ho

/-- What was stored for a peer that is not given up is there until the peer took it. -/
theorem stored_or_taken_of_write (hkeeps : KeepsPeers may) (hr : Reaches may (initial d db) w)
    (hs : (n, .accepted s) ∈ w.trace) (honly : OnlyUnderId s w.trace)
    (hwrite : (n, .write s.ticket s.message s.targets true) ∈ w.trace) (hi : i ∈ s.targets) :
    w.db.Holds s.message i.uri ∨ Taken w.trace s.message.id i.uri := by
  obtain ⟨u, g, a, c, hmoment, hseen⟩ := exists_moment_of_mem hr (mem_traceOf.2 hwrite) rfl
  obtain ⟨u', hmove, htrace, hlater⟩ := hmoment.goesOn
  obtain ⟨now, hnow⟩ := (moves_of_move hmove).trace_suffix
  have hwrote : (n, .write s.ticket s.message s.targets true) ∈ now := by
    rw [traceOf, ← hnow, seenOf_append] at htrace
    rw [← mem_seenOf, List.append_cancel_right htrace]
    exact List.mem_reverse.2 hseen
  obtain ⟨record, hwritten⟩ := (moves_of_move hmove).write_of_mem hnow.symm hwrote
  obtain ⟨more, hmore⟩ := hlater.trace_suffix
  have hlast := honly.not_written_later hr hs hmore.symm (hnow ▸ List.mem_append_left _ hwrote)
  have hheld := (heldAsWritten_of_write hwritten).of_reaches hlater hmore.symm hlast
  by_cases hconcluded : Concluded u' more s.message.id i.uri
  · refine Or.inr ?_
    have hu' : Reachable (initial d db) u' :=
      .step _ (hmoment.reached.mono fun _ _ _ ↦ trivial) trivial hmove
    rcases hconcluded with hfinished | hfinishing
    · exact taken_of_finished hkeeps hr (hmore ▸ List.subset_append_left _ _) hfinished
    · exact taken_of_finished hkeeps hr hlater.trace_suffix.subset
        (finished_of_finishing hu' hfinishing)
  · exact Or.inl (hheld.holds i hi hconcluded)

/-- What was not stored is not there, under its id at least. -/
theorem not_stored_of_unwritten (hr : Reaches may (initial d db) w)
    (hs : (n, .accepted s) ∈ w.trace) (honly : OnlyUnderId s w.trace) (htargets : s.targets ≠ [])
    (hfresh : ∀ row, db.Stores row → row.id ≠ .text s.message.id)
    (hwrite : (n, .write s.ticket s.message s.targets false) ∈ w.trace) :
    ∀ row, w.db.Stores row → row.id ≠ .text s.message.id := by
  intro row hrow hid
  rcases (recorded hr).rows row hrow with hstored | ⟨n', k, m, l, hwrote, rfl⟩
  · exact hfresh row hstored hid
  · have hkey := honly.key_eq hr hwrote rfl (Store.Cell.text.inj hid)
    obtain ⟨rfl, -⟩ := write_of_settled hr hs htargets hwrote hkey
    have hsame := eq_of_settled hr hwrote hwrite hkey rfl rfl
    cases hsame

end Reached

end PeerRelay.Delivery
