import PeerRelay.Proofs.Delivery.WriteAhead
import PeerRelay.Proofs.Store.Holdings

/-!
# What is forwarded when the store fails

The storing worker forwards a submission whether or not the store took it: the peers of the record
if it did, the peers that the submission was meant for if it did not (`onward`). The record has each
URI once. What the submission was meant for may have a URI more than once, and then it is forwarded
as often: the store decides how often a peer is called. Both parcels note the same peers as known,
and they agree exactly if no URI comes twice (`forwarded_alike_iff`).

The parcel of a submission is the only one under its ticket, in whatever world that is reached
later, so that its peers are all to whom the submission was offered (`offered_cases_of_write`).
-/

namespace PeerRelay.Delivery

open Observation World
open Store (distinctByUri_eq_self_iff)

/-! ### For whom a submission goes on -/

/-- No URI gets lost. -/
theorem exists_mem_onward_iff {recipients : List Instance} {done : Bool} {uri : String} :
    (∃ i ∈ onward recipients done, i.uri = uri) ↔ ∃ i ∈ recipients, i.uri = uri := by
  cases done with
  | false => exact Iff.rfl
  | true => exact Store.exists_mem_distinctByUri_iff

/-! ### What is offered under a ticket -/

/-- The peers to whom the outbox was offered something under a ticket, as often as it was. -/
def offered (k : Nat) (tr : List Observation) : List Instance :=
  ((tr.filterMap parcel?).filter (·.ticket = k)).flatMap (·.targets)

section Reached

variable {d : Directory} {db : Store.Database} {w : World} {n k : Nat} {g : Generation}
  {p : Parcel} {m : Message} {recipients : List Instance} {done : Bool}

/-- What is forwarded under the ticket of a write is what was to be written, and goes on as the
write went. -/
theorem eq_of_forwarded_write (hr : Reachable (initial d db) w) (hg : w.generations[n]? = some g)
    (hp : .forwarded p ∈ w.traceOf n) (hwrite : .write p.ticket m recipients done ∈ w.traceOf n) :
    p.message = m ∧ p.targets = onward recipients done := by
  -- it is the parcel of a submission, not that of a record
  have hnot : p.ticket ∉ (w.traceOf n).filterMap reloaded? := by
    intro hreloaded
    obtain ⟨record, hrecord⟩ := mem_reloaded.1 hreloaded
    exact not_written_of_reloaded hr (mem_traceOf.1 hrecord) (mem_traceOf.1 hwrite)
  have hconsigned : p.consignment ∈ history consigned? (w.traceOf n) := by
    rw [(consigned hr hg).order]
    exact List.mem_append_left _ (mem_history.2 ⟨_, hp, if_neg hnot⟩)
  obtain ⟨o, ho, heq⟩ := mem_history.1 hconsigned
  cases o with
  | processed s targets =>
    rw [consigned?] at heq
    split at heq
    case isTrue => cases heq
    case isFalse somebody =>
      obtain ⟨hticket, hmessage, htargets⟩ := Consignment.mk.inj (Option.some.inj heq)
      obtain ⟨recipients', done', hwrite', honward⟩ := write_of_processed hr ho somebody
      have hsame := eq_of_filterMap_nodup (settledTickets_nodup hr hg) hwrite hwrite' rfl
        (congrArg some hticket)
      obtain ⟨-, rfl, rfl, rfl⟩ := Observation.write.inj hsame
      exact ⟨hmessage.symm, htargets.symm.trans honward⟩
  | _ => cases heq

/-- Nothing was offered under the ticket of a write yet, or all to whom the write lets it go on. -/
theorem offered_cases_of_write (hr : Reachable (initial d db) w) (hg : w.generations[n]? = some g)
    (hwrite : .write k m recipients done ∈ w.traceOf n) :
    offered k (w.traceOf n) = [] ∨ offered k (w.traceOf n) = onward recipients done := by
  have hnodup := forwardedParcels_nodup hr hg
  generalize hunder : ((w.traceOf n).filterMap parcel?).filter (·.ticket = k) = parcels
  have hmem : ∀ p ∈ parcels, .forwarded p ∈ w.traceOf n ∧ p.ticket = k := by
    intro p hp
    rw [← hunder] at hp
    obtain ⟨hparcel, hticket⟩ := List.mem_filter.1 hp
    obtain ⟨o, ho, heq⟩ := List.mem_filterMap.1 hparcel
    cases o <;> cases heq
    exact ⟨ho, of_decide_eq_true hticket⟩
  have htickets : (parcels.map (·.ticket)).Nodup :=
    hnodup.sublist (hunder ▸ List.filter_sublist.map _)
  rw [offered, hunder]
  rcases parcels with - | ⟨p, - | ⟨q, rest⟩⟩
  · exact Or.inl rfl
  · obtain ⟨hp, rfl⟩ := hmem p List.mem_cons_self
    exact Or.inr (by simpa using (eq_of_forwarded_write hr hg hp hwrite).2)
  · -- a second parcel would have the same ticket
    have hp := (hmem p List.mem_cons_self).2
    have hq := (hmem q (List.mem_cons_of_mem _ List.mem_cons_self)).2
    simp [hp, hq] at htickets

end Reached

/-! ### One submission, and a store that fails or not -/

/-- In the world `u` the storing worker of the generation `n` forwards the parcel. -/
def World.Forwards (u : World) (n : Nat) (p : Parcel) : Prop :=
  ∃ u', u.move (.act n .forward) = some u' ∧ u'.traceOf n = .forwarded p :: u.traceOf n

/-- What is forwarded is put together as the directory is. -/
theorem World.Forwards.eq_track {u : World} {n : Nat} {p : Parcel} (h : u.Forwards n p) :
    ∃ k m targets, p = Parcel.track u.directory k m targets := by
  obtain ⟨u', hmove, htrace⟩ := h
  cases moves_of_move hmove with
  | act _ g _ c at_n acts =>
    rw [traceOf, seenOf_append, seenOf_map_self, ← traceOf] at htrace
    have hseen : c.seen.reverse = [.forwarded p] := List.append_cancel_right htrace
    refine acts.track_of_forwarded (List.mem_reverse.1 ?_)
    rw [hseen]
    exact List.mem_cons_self

/-- In the world `u` the storing worker of the generation `n` was to write the submission, and is to
forward it next. -/
structure JustWritten (u : World) (n : Nat) (s : Submission) (recipients : List Instance)
    (done : Bool) : Prop where
  storing : ∃ g, u.generations[n]? = some g ∧ g.storing = .written s (onward recipients done)
  write : .write s.ticket s.message recipients done ∈ u.traceOf n

section Step

variable {d : Directory} {db : Store.Database} {u v w : World} {n : Nat} {g : Generation}
  {s : Submission} {p : Parcel} {recipients : List Instance} {done : Bool}

/-- The store is called for what the storing worker holds. -/
theorem exists_move_store (hg : w.generations[n]? = some g) (holding : g.storing = .holding s)
    (call : StoreCall) : ∃ u, w.move (.act n (.store call)) = some u ∧
      u.directory = w.directory ∧
      u.generations[n]? = some (g.storeSubmission w.db w.directory s call).generation ∧
      ∀ o ∈ (g.storeSubmission w.db w.directory s call).seen, o ∈ u.traceOf n := by
  have hact : g.act w (.store call) = some (g.storeSubmission w.db w.directory s call) := by
    rw [Generation.act, Generation.store, holding]
  generalize g.storeSubmission w.db w.directory s call = c at hact
  have hmove : w.move (.act n (.store call)) = some { w with
      db := c.db
      generations := w.generations.set n c.generation
      trace := (c.seen.map (n, ·)).reverse ++ w.trace } := by
    rw [World.move, World.act, hg]
    exact congrArg (Option.map _) hact
  refine ⟨_, hmove, rfl, ?_, ?_⟩
  · exact List.getElem?_set_self (List.getElem?_eq_some_iff.1 hg).1
  · intro o ho
    exact mem_traceOf.2 (List.mem_append_left _
      (List.mem_reverse.2 (List.mem_map_of_mem ho)))

/-- Where the store fails, the submission goes on to all that it was meant for. -/
theorem exists_justWritten_of_fails (hg : w.generations[n]? = some g)
    (holding : g.storing = .holding s) (somebody : s.recipients w.directory ≠ []) :
    ∃ u, w.move (.act n (.store .fails)) = some u ∧ u.directory = w.directory ∧
      JustWritten u n s (s.recipients w.directory) false := by
  have hchange : g.storeSubmission w.db w.directory s .fails =
      ⟨{ g with storing := .written s (s.recipients w.directory) }, w.db,
        [.write s.ticket s.message (s.recipients w.directory) false,
          .processed s (s.recipients w.directory)]⟩ := by
    unfold Generation.storeSubmission
    split
    case h_1 nobody => exact absurd nobody somebody
    case h_2 => rfl
  obtain ⟨u, hmove, hdirectory, hu, hseen⟩ := exists_move_store hg holding .fails
  rw [hchange] at hu hseen
  exact ⟨u, hmove, hdirectory, ⟨_, hu, rfl⟩, hseen _ List.mem_cons_self⟩

/-- Where the store works, it goes on to each URI once. -/
theorem exists_justWritten_of_works (hg : w.generations[n]? = some g)
    (holding : g.storing = .holding s) (somebody : s.recipients w.directory ≠ [])
    {record : Store.Record} {db' : Store.Database}
    (writes : Store.write w.db s.message (s.recipients w.directory) = (.ok record, db')) :
    ∃ u, w.move (.act n (.store .works)) = some u ∧ u.directory = w.directory ∧
      JustWritten u n s (s.recipients w.directory) true := by
  obtain ⟨rfl, -⟩ := Store.write_eq_ok writes
  have hchange : g.storeSubmission w.db w.directory s .works =
      ⟨{ g with storing := .written s (distinctByUri (s.recipients w.directory)) }, db',
        .write s.ticket s.message (s.recipients w.directory) true ::
          (distinctByUri (s.recipients w.directory)).map (.stored s.ticket s.message) ++
            [.processed s (distinctByUri (s.recipients w.directory))]⟩ := by
    unfold Generation.storeSubmission
    split
    case h_1 nobody => exact absurd nobody somebody
    case h_2 => rw [writes]
  obtain ⟨u, hmove, hdirectory, hu, hseen⟩ := exists_move_store hg holding .works
  rw [hchange] at hu hseen
  exact ⟨u, hmove, hdirectory, ⟨_, hu, rfl⟩, hseen _ (List.mem_append_left _ List.mem_cons_self)⟩

namespace JustWritten

variable (h : JustWritten u n s recipients done)

include h

/-- It can be forwarded at once. -/
theorem exists_forwards : ∃ p, u.Forwards n p ∧ p.ticket = s.ticket := by
  obtain ⟨g, hg, written⟩ := h.storing
  have hsome := Generation.isSome_forward (w := u) written
  rw [← Generation.isSome_move hg] at hsome
  obtain ⟨u', hmove⟩ := Option.isSome_iff_exists.1 hsome
  cases moves_of_move hmove with
  | act _ g₁ _ c at_n acts =>
    obtain rfl : g = g₁ := Option.some.inj (hg.symm.trans at_n)
    cases acts with
    | forward s' targets written' p parcel storing waits =>
      obtain ⟨rfl, -⟩ := Storing.written.inj (written.symm.trans written')
      refine ⟨p, ⟨_, hmove, ?_⟩, congrArg Parcel.ticket parcel⟩
      rw [traceOf, seenOf_append, seenOf_map_self, ← traceOf]
      rfl

variable (hr : Reachable (initial d db) u) (hv : Reachable u v)

include hr hv

/-- Whenever it is forwarded, it goes to the peers that the write lets it go on to, and what it
notes is what the directory then knows of those for whom it was to be written. -/
theorem of_forwards (hp : v.Forwards n p) (hticket : p.ticket = s.ticket) :
    p.message = s.message ∧ p.targets = onward recipients done ∧ ∀ uri, p.wasKnown uri = true ↔
      (∃ i ∈ recipients, i.uri = uri) ∧ v.directory.contains uri = true := by
  obtain ⟨v', hmove, htrace⟩ := hp
  have hlater : Reachable u v' := .step _ hv trivial hmove
  have hr' : Reachable (initial d db) v' := hr.trans hlater
  have hp : .forwarded p ∈ v'.traceOf n := htrace ▸ List.mem_cons_self
  have hwrite : .write p.ticket s.message recipients done ∈ v'.traceOf n := by
    rw [hticket]
    exact mem_traceOf.2 (hlater.trace_suffix.subset (mem_traceOf.1 h.write))
  obtain ⟨g, hg⟩ := exists_generation hr' (mem_traceOf.1 hp)
  obtain ⟨hmessage, htargets⟩ := eq_of_forwarded_write hr' hg hp hwrite
  refine ⟨hmessage, htargets, fun uri ↦ ?_⟩
  obtain ⟨k, m, targets, rfl⟩ := Forwards.eq_track ⟨v', hmove, htrace⟩
  rw [Parcel.wasKnown_track_iff, show targets = onward recipients done from htargets,
    exists_mem_onward_iff]

/-- In every later world nothing was offered under its ticket yet, or all to whom the write lets it
go on. -/
theorem offered_cases : offered s.ticket (v.traceOf n) = [] ∨
    offered s.ticket (v.traceOf n) = onward recipients done := by
  have hwrite := hv.trace_suffix.subset (mem_traceOf.1 h.write)
  obtain ⟨g, hg⟩ := exists_generation (hr.trans hv) hwrite
  exact offered_cases_of_write (hr.trans hv) hg (mem_traceOf.2 hwrite)

end JustWritten

/-- **A store that fails makes no difference to a submission exactly if it repeats no URI.** The
storing worker holds a submission, and the store could take it.

- Whether the store works or fails, the submission can be forwarded at once.
- Whenever it is, with the same directory in both cases, the two parcels carry the same message and
  note the same peers as known. They have the same targets if and only if no URI comes twice among
  those for whom the submission is meant.
- In whatever goes on after the store worked, each of them is offered the message once, or not yet.
- In whatever goes on after the store failed, they are offered it as often as they are listed, or
  not yet. -/
theorem forwarded_alike_iff (hr : Reachable (initial d db) w) (hg : w.generations[n]? = some g)
    (holding : g.storing = .holding s) (hrecipients : s.recipients w.directory = recipients)
    (somebody : recipients ≠ []) {record : Store.Record} {db' : Store.Database}
    (writes : Store.write w.db s.message recipients = (.ok record, db')) :
    ∃ u v, w.move (.act n (.store .works)) = some u ∧ w.move (.act n (.store .fails)) = some v ∧
      (u.directory = v.directory ∧
        ∃ p q, u.Forwards n p ∧ v.Forwards n q ∧ p.ticket = s.ticket ∧ q.ticket = s.ticket) ∧
      (∀ u' v' p q, Reachable u u' → Reachable v v' → u'.directory = v'.directory →
        u'.Forwards n p → v'.Forwards n q → p.ticket = s.ticket → q.ticket = s.ticket →
        p.message = q.message ∧ (∀ uri, p.wasKnown uri = q.wasKnown uri) ∧
          (p.targets = q.targets ↔ (recipients.map (·.uri)).Nodup)) ∧
      (∀ u', Reachable u u' → offered s.ticket (u'.traceOf n) = [] ∨
        ∀ i ∈ recipients, ((offered s.ticket (u'.traceOf n)).map (·.uri)).count i.uri = 1) ∧
      ∀ v', Reachable v v' → offered s.ticket (v'.traceOf n) = [] ∨
        offered s.ticket (v'.traceOf n) = recipients := by
  subst hrecipients
  obtain ⟨u, hworks, hdu, hu⟩ := exists_justWritten_of_works hg holding somebody writes
  obtain ⟨v, hfails, hdv, hv⟩ := exists_justWritten_of_fails hg holding somebody
  have hru : Reachable (initial d db) u := .step _ hr trivial hworks
  have hrv : Reachable (initial d db) v := .step _ hr trivial hfails
  refine ⟨u, v, hworks, hfails, ?_, ?_, fun u' hu' ↦ ?_, fun v' hv' ↦ hv.offered_cases hrv hv'⟩
  · obtain ⟨p, hp, hticket⟩ := hu.exists_forwards
    obtain ⟨q, hq, hticket'⟩ := hv.exists_forwards
    exact ⟨hdu.trans hdv.symm, p, q, hp, hq, hticket, hticket'⟩
  · intro u' v' p q hu' hv' hdirectory hp hq hticket hticket'
    obtain ⟨hmessage, htargets, hnotes⟩ := hu.of_forwards hru hu' hp hticket
    obtain ⟨hmessage', htargets', hnotes'⟩ := hv.of_forwards hrv hv' hq hticket'
    refine ⟨hmessage.trans hmessage'.symm, fun uri ↦ ?_, ?_⟩
    · rw [Bool.eq_iff_iff, hnotes, hnotes', hdirectory]
    · rw [htargets, htargets']
      exact distinctByUri_eq_self_iff
  · refine (hu.offered_cases hru hu').imp_right fun hall i hi ↦ ?_
    rw [hall]
    refine List.count_eq_one_of_mem (Store.uris_distinctByUri_nodup _) ?_
    exact List.mem_map.2 (Store.exists_mem_distinctByUri_iff.2 ⟨i, hi, rfl⟩)

end Step

/-- The peers of a message that names one of them twice. -/
def repeatedPeers : List Instance :=
  [⟨"a", "http://a"⟩, ⟨"b", "http://b"⟩, ⟨"c", "http://a"⟩]

/-- The message, as it was handed in. -/
def repeatedSubmission : Submission :=
  ⟨0, { (default : Message) with id := "1" }, repeatedPeers⟩

/-- The storing worker takes the message. -/
def repeatedMoves : List Move :=
  [.start {} .works, .submit 0 repeatedSubmission.message repeatedPeers, .act 0 (.arrive 0),
    .act 0 .accept, .act 0 .receive]

theorem forwarded_alike_iff_of_repeated :
    ∃ w u v, Reachable (initial ⟨[⟨"a", "http://a"⟩]⟩ .fresh) w ∧
      w.move (.act 0 (.store .works)) = some u ∧ w.move (.act 0 (.store .fails)) = some v ∧
      (∃ p q, u.Forwards 0 p ∧ v.Forwards 0 q ∧ p.targets ≠ q.targets) ∧
      (∀ u', Reachable u u' → offered 0 (u'.traceOf 0) = [] ∨ ∀ i ∈ repeatedPeers,
        ((offered 0 (u'.traceOf 0)).map (·.uri)).count i.uri = 1) ∧
      ∀ v', Reachable v v' → offered 0 (v'.traceOf 0) = [] ∨
        offered 0 (v'.traceOf 0) = repeatedPeers := by
  have hrun : ((initial ⟨[⟨"a", "http://a"⟩]⟩ .fresh).run (fun _ _ ↦ True) repeatedMoves).any
      (fun w ↦ w.generations[0]?.any fun g ↦ g.storing = .holding repeatedSubmission ∧
        (Store.write w.db repeatedSubmission.message repeatedPeers).1.toOption.isSome) = true := by
    decide +kernel
  obtain ⟨w, g, hr, hg, htest⟩ := exists_of_run hrun
  obtain ⟨holding, hwrites⟩ := of_decide_eq_true htest
  obtain ⟨record, hrecord⟩ := Option.isSome_iff_exists.1 hwrites
  have hrecipients : repeatedSubmission.recipients w.directory = repeatedPeers := rfl
  obtain ⟨u, v, hworks, hfails, ⟨hdirectory, p, q, hp, hq, hticket, hticket'⟩, halike, hu, hv⟩ :=
    forwarded_alike_iff hr hg holding hrecipients (by decide)
      (Prod.ext (toOption_eq_some.1 hrecord) rfl)
  have hdiffer := (halike u v p q .start .start hdirectory hp hq hticket hticket').2.2
  exact ⟨w, u, v, hr, hworks, hfails, ⟨p, q, hp, hq, fun heq ↦ absurd (hdiffer.1 heq) (by decide)⟩,
    hu, hv⟩

/-- With a store that works the peer is in the parcel once. With one that fails it is there twice,
and takes the message twice. -/
theorem repeated_sent_twice :
    ∃ w u v v', Reachable (initial ⟨[⟨"a", "http://a"⟩]⟩ .fresh) w ∧
      w.move (.act 0 (.store .works)) = some u ∧ w.move (.act 0 (.store .fails)) = some v ∧
      u.Forwards 0 (.track u.directory 0 repeatedSubmission.message
        [⟨"a", "http://a"⟩, ⟨"b", "http://b"⟩]) ∧
      v.Forwards 0 (.track v.directory 0 repeatedSubmission.message repeatedPeers) ∧
      Reachable v v' ∧ v'.events = repeatedPeers.map fun i ↦
        .outbound .sent repeatedSubmission.message (some i.uri) := by
  have hrun : ((initial ⟨[⟨"a", "http://a"⟩]⟩ .fresh).run (fun _ _ ↦ True) repeatedMoves).any
      (fun w ↦ w.generations[0]?.any fun _ ↦
        (w.move (.act 0 (.store .works))).any fun u ↦
        (w.move (.act 0 (.store .fails))).any fun v ↦
        ((u.move (.act 0 .forward)).any fun u' ↦ u'.traceOf 0 =
          .forwarded (.track u.directory 0 repeatedSubmission.message
            [⟨"a", "http://a"⟩, ⟨"b", "http://b"⟩]) :: u.traceOf 0) &&
        ((v.move (.act 0 .forward)).any fun v' ↦ v'.traceOf 0 =
          .forwarded (.track v.directory 0 repeatedSubmission.message repeatedPeers) ::
            v.traceOf 0) &&
        (v.run (fun _ _ ↦ True) (.act 0 .forward :: .act 0 .take ::
          repeatedPeers.flatMap fun _ ↦
            [.act 0 .attempt, .act 0 (.answer .delivers), .act 0 .announce,
              .act 0 (.forget .works)])).any fun v' ↦
          v'.events = repeatedPeers.map fun i ↦
            .outbound .sent repeatedSubmission.message (some i.uri)) = true := by
    decide +kernel
  obtain ⟨w, -, hr, -, htest⟩ := exists_of_run hrun
  obtain ⟨u, hworks, htest⟩ := (Option.any_eq_true _ _).1 htest
  obtain ⟨v, hfails, htest⟩ := (Option.any_eq_true _ _).1 htest
  obtain ⟨hparcels, hsent⟩ := Bool.and_eq_true_iff.1 htest
  obtain ⟨hp, hq⟩ := Bool.and_eq_true_iff.1 hparcels
  obtain ⟨u', hforward, htrace⟩ := (Option.any_eq_true _ _).1 hp
  obtain ⟨v₁, hforward', htrace'⟩ := (Option.any_eq_true _ _).1 hq
  obtain ⟨v', hlater, hevents⟩ := (Option.any_eq_true _ _).1 hsent
  exact ⟨w, u, v, v', hr, hworks, hfails, ⟨u', hforward, of_decide_eq_true htrace⟩,
    ⟨v₁, hforward', of_decide_eq_true htrace'⟩, reaches_of_run .start hlater,
    of_decide_eq_true hevents⟩

end PeerRelay.Delivery
