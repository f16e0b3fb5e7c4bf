import PeerRelay.Proofs.Delivery.Provenance
import PeerRelay.Proofs.Delivery.WriteAhead
import PeerRelay.Proofs.Store.Reopening
import PeerRelay.Proofs.Wire.Body

/-!
# A restart is not seen by a peer

The store and the wire write a date down with the same precision, so that a message and what is read
of it have one body (`ofMessage_asRead`). The store returns the message as it is read of its row,
however often it was closed and opened and whatever else was asked of it meanwhile; and what the
sending worker carries is a message as it was submitted, or as it was read back
(`submitted_of_attempt`). So the body that a peer gets is the body of what was submitted, from
memory as well as after restarts (`same_body_after_restarts`).
-/

namespace PeerRelay

open Calendar Delivery Delivery.World

/-- A message and what is read of it have one body. -/
@[simp] theorem Wire.Body.ofMessage_asRead (m : Message) (sender : String) :
    ofMessage m.asRead sender = ofMessage m sender := by
  unfold ofMessage Message.asRead
  dsimp only
  rw [DateText.encode_asRead]

/-- If the row of a message is decoded, it is decoded to the message as it is read again. -/
theorem Store.eq_asRead_of_message? {m m' : Message}
    (h : (TypedRow.ofMessage m).message? = some m') : m' = m.asRead := by
  by_cases hyear : DateText.FourDigitYear m.date
  · exact Option.some.inj (h.symm.trans (message?_written hyear))
  · rw [message?_written_of_signed hyear] at h
    contradiction

/-! ### What is carried to a peer -/

namespace Delivery

variable {d : Directory} {db : Store.Database} {w : World} {n k f : Nat} {m : Message}
  {i : Instance}

/-- What a peer is called with was submitted, and may have been read back, or was in the store at
the beginning. -/
theorem submitted_of_attempt (hr : Reachable (initial d db) w)
    (hattempt : (n, .attempt k m i f) ∈ w.trace) :
    (∃ n' s, (n', .accepted s) ∈ w.trace ∧ (m = s.message ∨ m = s.message.asRead)) ∨
      ∃ row r, db.Stores row ∧ row.typed = .ok r ∧ r.message? = some m := by
  have hwritten : ∀ {n' k' : Nat} {m' : Message} {targets : List Instance} {done : Bool},
      (n', Observation.write k' m' targets done) ∈ w.trace →
        ∃ s, (n', .accepted s) ∈ w.trace ∧ s.message = m' := by
    intro n' k' m' targets done hwrite
    obtain ⟨s, hs, hkey⟩ := accepted_of_settled hr hwrite rfl
    exact ⟨s, hs, congrArg Prod.snd hkey⟩
  obtain ⟨after, before, htrace⟩ := List.append_of_mem (mem_traceOf.2 hattempt)
  have hbefore : ∀ o ∈ before, (n, o) ∈ w.trace := by
    intro o ho
    rw [← mem_traceOf, htrace]
    exact List.mem_append_right _ (List.mem_cons_of_mem _ ho)
  rcases written_or_reloaded hr htrace with
    ⟨recipients, done, hwrite, -⟩ | ⟨record, hrecord, rfl, -⟩
  · obtain ⟨s, hs, hmessage⟩ := hwritten (hbefore _ hwrite)
    exact Or.inl ⟨n, s, hs, Or.inl hmessage.symm⟩
  · obtain ⟨row, r, hknown, htyped, hread, -⟩ :=
      (recorded hr).records n k record (hbefore _ hrecord)
    rcases hknown with hstored | ⟨n', k', m', targets, hwrite, rfl⟩
    · exact Or.inr ⟨row, r, hstored, htyped, hread⟩
    · obtain rfl : r = .ofMessage m' := Except.ok.inj (htyped.symm.trans (Store.typed_written m'))
      obtain ⟨s, hs, rfl⟩ := hwritten hwrite
      exact Or.inl ⟨n', s, hs, Or.inr (Store.eq_asRead_of_message? hread)⟩

end Delivery

/-! ### What a peer gets -/

namespace Wire.Body

open Store

/-- **A restart is not seen on the wire.** A message with a year of four digits is written to a
store that any requests were made of. Whatever is asked of the store then, but to write the id again
or to take the peer off, it can be closed and opened again; it is loaded, and what is loaded under
the id waits for the peer and has the body of the message. And in every run of the pipeline, with
any number of starts over its store, a peer is called with the body of a message that was submitted.
-/
theorem same_body_after_restarts {m : Message} {targets : List Instance} {i : Instance}
    {earlier later : List Request} (hyear : DateText.FourDigitYear m.date) (hi : i ∈ targets)
    (hspared : ∀ request ∈ later, request.Spares m.id i.uri) :
    (∃ db records db', write (Database.fresh.serveAll earlier) m targets =
        (.ok ⟨m, distinctByUri targets⟩, db) ∧
      Migration.run (db.serveAll later) = (.ok (), db.serveAll later) ∧
      load (db.serveAll later) = (.ok records, db') ∧
      (∃ r ∈ records, r.message.id = m.id ∧ ∃ j ∈ r.targets, j.uri = i.uri) ∧
      ∀ r ∈ records, r.message.id = m.id →
        r.message = m.asRead ∧ ∀ sender, ofMessage r.message sender = ofMessage m sender) ∧
    ∀ (d : Directory) (w : World) (n k f : Nat) (carried : Message) (peer : Instance),
      Reachable (initial d .fresh) w → (n, .attempt k carried peer f) ∈ w.trace →
      ∃ n' s, (n', .accepted s) ∈ w.trace ∧
        ∀ sender, ofMessage carried sender = ofMessage s.message sender := by
  constructor
  · have hbefore := usable_fresh.serveAll earlier
    obtain ⟨messages, rows, hm, ht, -⟩ := exists_load_iff.1 hbefore.loads
    have hwrite := write_of_tables (m := m) hm ht (List.ne_nil_of_mem hi)
    have husable := hbefore.write m targets
    rw [hwrite] at husable
    have hafter := husable.serveAll later
    obtain ⟨records, db', hload⟩ := hafter.loads
    obtain ⟨hwaits, hsame⟩ :=
      ((Keeps.of_write hwrite hi).serveAll husable hspared).load hload hyear
    refine ⟨_, records, db', hwrite, hafter.recorded.run_eq, hload, hwaits, fun r hr hid ↦ ?_⟩
    have hcut := hsame r hr hid
    exact ⟨hcut, fun sender ↦ by rw [hcut, ofMessage_asRead]⟩
  · intro d w n k f carried peer hr hattempt
    rcases submitted_of_attempt hr hattempt with ⟨n', s, hs, hmessage⟩ | ⟨row, r, hrow, -⟩
    · refine ⟨n', s, hs, fun sender ↦ ?_⟩
      rcases hmessage with rfl | rfl
      · rfl
      · exact ofMessage_asRead _ _
    · obtain ⟨rows, hrows, hmem⟩ := hrow
      cases hrows
      cases hmem

/-- A message is stored, and the pipeline is dropped and started again before it sends the
message. -/
def interruptedMoves : List Move :=
  [.start {} .works, .submit 0 leapMessage [⟨"b", "http://b"⟩], .act 0 (.arrive 0), .act 0 .accept,
    .act 0 .receive, .act 0 (.store .works), .act 0 .drop, .start {} .works, .act 1 .reload,
    .act 1 .take, .act 1 .attempt]

/-- A message whose date is finer than a millisecond is not stored as it was submitted, and is sent
with one body before and after the store was opened again. -/
theorem same_body_after_restarts_of_leapMessage :
    DateText.FourDigitYear leapMessage.date ∧ leapMessage.asRead ≠ leapMessage ∧
      (∃ db records db', write .fresh leapMessage [⟨"b", "http://b"⟩, ⟨"c", "http://c"⟩] =
          (.ok ⟨leapMessage, [⟨"b", "http://b"⟩, ⟨"c", "http://c"⟩]⟩, db) ∧
        load (db.serveAll [.reopen, .load, .remove leapMessage.id "http://c", .reopen]) =
          (.ok records, db') ∧
        ∃ r ∈ records, r.message = leapMessage.asRead ∧
          ∀ sender, ofMessage r.message sender = ofMessage leapMessage sender) ∧
      ∃ w n s, Reachable (initial ⟨[]⟩ .fresh) w ∧
        (1, .attempt 1 leapMessage.asRead ⟨"b", "http://b"⟩ 0) ∈ w.trace ∧
        (n, .accepted s) ∈ w.trace ∧
        ∀ sender, ofMessage leapMessage.asRead sender = ofMessage s.message sender := by
  have hyear : DateText.FourDigitYear leapMessage.date := by decide
  have hrun : ((initial ⟨[]⟩ .fresh).run (fun _ _ ↦ True) interruptedMoves).any (fun w ↦
      w.generations[1]?.any fun _ ↦
        (1, .attempt 1 leapMessage.asRead ⟨"b", "http://b"⟩ 0) ∈ w.trace) = true := by
    decide +kernel
  obtain ⟨w, -, hr, -, hattempt⟩ := exists_of_run hrun
  have hspared : ∀ request ∈ [Request.reopen, .load, .remove leapMessage.id "http://c", .reopen],
      request.Spares leapMessage.id "http://b" := by
    simp [Request.Spares]
  obtain ⟨⟨db, records, db', hwrite, -, hload, ⟨r, hr', hid, -⟩, hsame⟩, hcalls⟩ :=
    @same_body_after_restarts leapMessage [⟨"b", "http://b"⟩, ⟨"c", "http://c"⟩] ⟨"b", "http://b"⟩
      [] _ hyear List.mem_cons_self hspared
  obtain ⟨n, s, hs, hbody⟩ := hcalls _ w _ _ _ _ _ hr (of_decide_eq_true hattempt)
  exact ⟨hyear, by decide, ⟨db, records, db', hwrite, hload, r, hr', hsame r hr' hid⟩,
    w, n, s, hr, of_decide_eq_true hattempt, hs, hbody⟩

end Wire.Body

end PeerRelay
