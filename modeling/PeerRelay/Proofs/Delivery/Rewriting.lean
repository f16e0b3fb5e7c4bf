import PeerRelay.Proofs.Delivery.Provenance

/-!
# An id that is submitted again

A message that is submitted under the id of a stored one takes its place, with its own peers. So
what the store holds under an id are the peers of the last write, as long as they are not finished
(`HeldAsWritten`), and a later start owes the message to these peers and to nobody else. A peer
that the message had yet to reach when it was written again is kept exactly if it is among the new
ones (`outstanding_kept_iff`); the retries for the others are in memory only and are lost when the
generation stops (`outstanding_lost`).

The store tells the messages of one id apart no more than their removals. A peer that took the
earlier message and is about to be taken off it as the id is written again may be taken off the new
one; such peers are left out (`Concluded`).
-/

namespace PeerRelay.Delivery

open Calendar Observation World

namespace Observation

/-- The id under which a message was stored. -/
def writtenId? : Observation → Option String
  | .write _ m _ true => some m.id
  | _ => none

end Observation

/-! ### After a write -/

/-- A peer needs no further call since the world `v`: it took the message or is given up since, or
it was about to be taken off then. -/
def Concluded (v : World) (later : List (Nat × Observation)) (id uri : String) : Prop :=
  Finished later id uri ∨ v.Finishing id uri

/-- The store holds a message for the peers that it was written for in `v`, unless that is
over since, and for nobody else. -/
structure HeldAsWritten (m : Message) (targets : List Instance) (v w : World)
    (later : List (Nat × Observation)) : Prop where
  holds : ∀ i ∈ targets, ¬ Concluded v later m.id i.uri → w.db.Holds m i.uri
  wants : ∀ uri, w.db.Wants m.id uri → ∃ i ∈ targets, i.uri = uri

section

variable {v w w' : World} {m : Message} {targets : List Instance}
  {later more : List (Nat × Observation)}

theorem heldAsWritten_of_write {db : Store.Database} {record : Store.Record}
    (h : Store.write db m targets = (.ok record, w.db)) : HeldAsWritten m targets w w [] where
  holds _ hi _ := Store.holds_of_write h hi
  wants _ hwants := by
    rcases (Store.wants_write h).1 hwants with ⟨-, htarget⟩ | ⟨hne, -⟩
    · exact htarget
    · exact absurd rfl hne

/-- Unless the id is written again, a move keeps the store in line with what was written. -/
theorem HeldAsWritten.of_move {may : World → Move → Prop} {move : Move}
    (h : HeldAsWritten m targets v w later) (hr : Reaches may v w)
    (hlater : w.trace = later ++ v.trace) (hmove : w.Moves move w')
    (htrace : w'.trace = more ++ w.trace)
    (hlast : ∀ entry ∈ more, entry.2.writtenId? ≠ some m.id) :
    HeldAsWritten m targets v w' (more ++ later) := by
  have hbefore : ∀ {uri}, ¬ Concluded v (more ++ later) m.id uri → ¬ Concluded v later m.id uri :=
    fun hopen hconcluded ↦ hopen (hconcluded.imp_left Finished.append)
  rcases hmove.db_cases htrace with hsame | ⟨records, hload⟩ |
    ⟨n, g, s, record, -, -, hwritten, hwrite⟩ | ⟨id, uri, hfinishing, hremove⟩
  · exact ⟨fun i hi hopen ↦ hsame ▸ h.holds i hi (hbefore hopen),
      fun uri hwants ↦ h.wants uri (hsame ▸ hwants)⟩
  · exact ⟨fun i hi hopen ↦ Store.holds_load hload (h.holds i hi (hbefore hopen)),
      fun uri hwants ↦ h.wants uri ((Store.wants_load hload).1 hwants)⟩
  · have hne : m.id ≠ s.message.id := fun heq ↦ hlast _ hwrite (congrArg some heq.symm)
    refine ⟨fun i hi hopen ↦ Store.holds_write hwritten hne (h.holds i hi (hbefore hopen)),
      fun uri hwants ↦ h.wants uri ?_⟩
    exact (Store.wants_of_write hwritten hwants).resolve_left hne
  · refine ⟨fun i hi hopen ↦ ?_, fun uri hwants ↦
      h.wants uri ((Store.wants_remove hremove).1 hwants).1⟩
    refine Store.holds_remove hremove ?_ (h.holds i hi (hbefore hopen))
    rintro ⟨rfl, rfl⟩
    exact hbefore hopen (finishing_of_reaches hr hlater hfinishing).symm

/-- So does every run in which the id is not written again. -/
theorem HeldAsWritten.of_reaches {may : World → Move → Prop} (h : HeldAsWritten m targets v v [])
    (hr : Reaches may v w') (htrace : w'.trace = more ++ v.trace)
    (hlast : ∀ entry ∈ more, entry.2.writtenId? ≠ some m.id) :
    HeldAsWritten m targets v w' more := by
  refine Reaches.induct (P := fun w' ↦ ∀ more, w'.trace = more ++ v.trace →
    (∀ entry ∈ more, entry.2.writtenId? ≠ some m.id) → HeldAsWritten m targets v w' more)
    hr ?_ (fun {u u' m'} hu _ hmove ih ↦ ?_) more htrace hlast
  · intro more htrace _
    obtain rfl := List.self_eq_append_left.1 htrace
    exact h
  · intro more htrace hlast
    obtain ⟨before, hbefore⟩ := hu.trace_suffix
    obtain ⟨seen, hseen⟩ := hmove.trace_suffix
    obtain rfl : more = seen ++ before := by
      rw [← hseen, ← hbefore, ← List.append_assoc] at htrace
      exact (List.append_cancel_right htrace).symm
    exact (ih before hbefore.symm fun entry hentry ↦
      hlast entry (List.mem_append_right _ hentry)).of_move hu hbefore.symm hmove hseen.symm
        fun entry hentry ↦ hlast entry (List.mem_append_left _ hentry)

end

/-! ### The next start -/

/-- A generation has to take a message to a peer. -/
def Generation.Owes (g : Generation) (m : Message) (uri : String) : Prop :=
  ∃ x ∈ g.pending, x.message = m ∧ x.target.uri = uri

/-- What a generation that starts owes is wanted by the store. -/
theorem wants_of_mem_pending {db db' : Store.Database} {records : List Store.Record}
    {settings : Settings} {first : Nat} {x : Duty} (hload : Store.load db = (.ok records, db'))
    (hx : x ∈ (newGeneration settings (numbered first records)).pending) :
    db.Wants x.message.id x.target.uri := by
  rw [pending_newGeneration] at hx
  obtain ⟨⟨k, record⟩, hrecord, hduty⟩ := List.mem_flatMap.1 hx
  obtain ⟨i, hi, rfl⟩ := List.mem_map.1 hduty
  exact Store.wants_of_mem_load hload (mem_of_mem_numbered hrecord) hi

/-- **An id that is stored again is kept for its new peers, and for nobody else.** A message was
stored, and its id was not stored again since. Then the next start owes it to the peers that it was
stored for, unless that is over since; under its id it owes nothing to anybody else. So of the
peers that the id had yet to reach when it was stored again, it owes the message to those that are
not done with exactly if all of them are among the new peers. -/
theorem outstanding_kept_iff {w w' u v : World} {move : Move} {n k : Nat} {m : Message}
    {targets : List Instance} {later more : List (Nat × Observation)} {records : List Store.Record}
    {db' : Store.Database} (settings : Settings) (hmove : w.move move = some w')
    (hwrite : w'.trace = later ++ (n, .write k m targets true) :: w.trace)
    (hu : Reachable w' u) (hmore : u.trace = more ++ w'.trace)
    (hlast : ∀ entry ∈ more, entry.2.writtenId? ≠ some m.id)
    (hyear : DateText.FourDigitYear m.date) (hv : v.db = u.db)
    (hload : Store.load v.db = (.ok records, db')) :
    ∃ g, (v.start settings .works).generations = v.generations ++ [g] ∧
      (∀ i ∈ targets, ¬ Concluded w' more m.id i.uri → g.Owes m.asRead i.uri) ∧
      (∀ x ∈ g.pending, x.message.id = m.id → ∃ i ∈ targets, i.uri = x.target.uri) ∧
      ((∀ uri, w.db.Wants m.id uri → ¬ Concluded w' more m.id uri → g.Owes m.asRead uri) ↔
        ∀ uri, w.db.Wants m.id uri → ¬ Concluded w' more m.id uri →
          ∃ i ∈ targets, i.uri = uri) := by
  have htrace : w'.trace = (later ++ [(n, .write k m targets true)]) ++ w.trace := by
    simpa using hwrite
  obtain ⟨record, hwritten⟩ := (moves_of_move hmove).write_of_mem htrace
    (List.mem_append_right _ List.mem_cons_self)
  have hheld : HeldAsWritten m targets w' u more :=
    (heldAsWritten_of_write hwritten).of_reaches hu hmore hlast
  refine ⟨_, generations_start hload, ?_⟩
  generalize hg : newGeneration settings (numbered v.nextTicket records) = g
  have howes : ∀ i ∈ targets, ¬ Concluded w' more m.id i.uri → g.Owes m.asRead i.uri :=
    fun i hi hopen ↦ hg ▸ exists_pending_of_load hload hyear (hv ▸ hheld.holds i hi hopen)
  have honly : ∀ x ∈ g.pending, x.message.id = m.id → ∃ i ∈ targets, i.uri = x.target.uri := by
    intro x hx hid
    have hwants := wants_of_mem_pending hload (hg ▸ hx)
    rw [hid, hv] at hwants
    exact hheld.wants _ hwants
  refine ⟨howes, honly, fun h uri hwants hopen ↦ ?_, fun h uri hwants hopen ↦ ?_⟩
  · obtain ⟨x, hx, hmessage, rfl⟩ := h uri hwants hopen
    exact honly x hx ((congrArg Message.id hmessage).trans m.id_asRead)
  · obtain ⟨i, hi, rfl⟩ := h uri hwants hopen
    exact howes i hi hopen

/-- A message that did not reach its peer is submitted again for another one, and the storing worker
is about to write it. -/
def resubmittedMoves : List Move :=
  let submit (target : Instance) : Move :=
    .submit 0 { (default : Message) with id := "1" } [target]
  [.start {} .works, submit ⟨"a", "http://a"⟩, .act 0 (.arrive 0), .act 0 .accept, .act 0 .receive,
    .act 0 (.store .works), .act 0 .forward, .act 0 .take, .act 0 .attempt, .act 0 (.answer .fails),
    .act 0 .lookUp, .act 0 .putBack, submit ⟨"b", "http://b"⟩, .act 0 (.arrive 1), .act 0 .accept,
    .act 0 .receive]

theorem outstanding_kept_iff_of_resubmitted :
    ∃ w w' g, Reachable (initial ⟨[]⟩ .fresh) w ∧ w.move (.act 0 (.store .works)) = some w' ∧
      ((initial ⟨[]⟩ w'.db).start {} .works).generations = [g] ∧
      g.Owes (Message.asRead { (default : Message) with id := "1" }) "http://b" ∧
      ∀ x ∈ g.pending, x.message.id = "1" → x.target.uri = "http://b" := by
  have hrun : ((initial ⟨[]⟩ .fresh).run (fun _ _ ↦ True) resubmittedMoves).any (fun w ↦
      w.generations[0]?.any fun _ ↦ (w.move (.act 0 (.store .works))).any fun w' ↦
        w'.trace = w'.trace.take 2 ++ (0, .write 1 { (default : Message) with id := "1" }
          [⟨"b", "http://b"⟩] true) :: w.trace ∧ (∀ g ∈ w'.generations, g.tour = none) ∧
            (Store.load w'.db).1.isOk) = true := by
    decide +kernel
  obtain ⟨w, -, hr, -, hstored⟩ := exists_of_run hrun
  obtain ⟨w', hmove, htest⟩ := (Option.any_eq_true _ _).1 hstored
  obtain ⟨hwrite, hidle, hloads⟩ := of_decide_eq_true htest
  obtain ⟨records, hrecords⟩ : ∃ records, (Store.load w'.db).1 = .ok records := by
    cases hload : (Store.load w'.db).1 with
    | ok records => exact ⟨records, rfl⟩
    | error fault => simp [hload, Except.isOk, Except.toBool] at hloads
  obtain ⟨g, hg, howes, honly, -⟩ := outstanding_kept_iff (v := initial ⟨[]⟩ w'.db) {} hmove hwrite
    .start (List.nil_append _).symm (by simp) (by decide) rfl (Prod.ext hrecords rfl)
  have hopen : ¬ Concluded w' [] "1" "http://b" := by
    rintro (⟨entry, hentry, -⟩ | ⟨n, g', hg', t, i, touring, -⟩)
    · exact absurd hentry List.not_mem_nil
    · rw [hidle g' (List.mem_of_getElem? hg')] at touring
      cases touring
  refine ⟨w, w', g, hr, hmove, hg, howes ⟨"b", "http://b"⟩ (by simp) hopen, fun x hx hid ↦ ?_⟩
  obtain ⟨i, hi, huri⟩ := honly x hx hid
  rw [← huri, List.mem_singleton.1 hi]

/-- The first peer never took the message, and after a restart nobody owes it to the peer. -/
theorem outstanding_lost :
    ∃ w w' g, Reachable (initial ⟨[]⟩ .fresh) w ∧ w.db.Wants "1" "http://a" ∧
      w.move (.act 0 (.store .works)) = some w' ∧
      (0, .write 1 { (default : Message) with id := "1" } [⟨"b", "http://b"⟩] true) ∈ w'.trace ∧
      ¬ Finished w'.trace "1" "http://a" ∧
      ((initial ⟨[]⟩ w'.db).start {} .works).generations[0]? = some g ∧
      g.Owes (Message.asRead { (default : Message) with id := "1" }) "http://b" ∧
      ∀ m, ¬ g.Owes m "http://a" := by
  have hrun : ((initial ⟨[]⟩ .fresh).run (fun _ _ ↦ True) resubmittedMoves).any (fun w ↦
      w.generations[0]?.any fun _ ↦ (w.move (.act 0 (.store .works))).any fun w' ↦
        ((initial ⟨[]⟩ w'.db).start {} .works).generations[0]?.any fun g ↦
          (∃ rows ∈ w.db.targets, ∃ row ∈ rows, row.messageId = "1" ∧ row.uri = .text "http://a") ∧
          (0, .write 1 { (default : Message) with id := "1" } [⟨"b", "http://b"⟩] true) ∈ w'.trace ∧
          (∀ entry ∈ w'.trace, entry.2.finished? ≠ some ("1", "http://a")) ∧
          (∃ x ∈ g.pending, x.message = Message.asRead { (default : Message) with id := "1" } ∧
            x.target.uri = "http://b") ∧
          ∀ x ∈ g.pending, x.target.uri ≠ "http://a") = true := by
    decide +kernel
  obtain ⟨w, -, hr, -, hstored⟩ := exists_of_run hrun
  obtain ⟨w', hmove, hstarted⟩ := (Option.any_eq_true _ _).1 hstored
  obtain ⟨g, hg, htest⟩ := (Option.any_eq_true _ _).1 hstarted
  obtain ⟨⟨rows, hrows, hwants⟩, hwrite, hopen, howes, hlost⟩ := of_decide_eq_true htest
  exact ⟨w, w', g, hr, ⟨rows, hrows, hwants⟩, hmove, hwrite,
    fun ⟨entry, hentry, hfinished⟩ ↦ hopen entry hentry hfinished, hg, howes,
    fun m ⟨x, hx, _, huri⟩ ↦ hlost x hx huri⟩

end PeerRelay.Delivery
