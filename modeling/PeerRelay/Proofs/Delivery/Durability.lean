import PeerRelay.Proofs.Delivery.Visits
import PeerRelay.Proofs.Store.Restoring

/-!
# What was stored stays stored

The store is shared by all generations. An action changes it in one of two ways: the storing worker
writes what it holds, or the sending worker takes off a peer that took the message or is given up
(`Generation.Acts.db_cases`); beyond that it is only read (`World.Moves.db_cases`). Between the
answer of a peer and its removal others may act, so a worker may be about to take a peer off
(`Generation.Finishing`), for which there is a reason in the trace. While no id is submitted twice,
a write meets no other message, and a removal meets only what was delivered or given up; so a
message that was written for a peer is there, with the peer, until one of the two happens
(`promisesStored`), and a generation that starts over the store owes it again (`no_target_lost`).
-/

namespace PeerRelay.Delivery

open Calendar Observation World

/-! ### What an action does to the store -/

namespace Generation

/-- The sending worker is about to take the peer off the message with the id. -/
def Finishing (g : Generation) (id uri : String) : Prop :=
  ∃ t i, g.tour = some t ∧ t.leg.finished? = some i ∧ t.parcel.message.id = id ∧ i.uri = uri

variable {w : World} {g : Generation} {a : Action} {c : Change}

/-- The storing worker writes what it holds, or the sending worker takes off the peer that it was
about to take off, or the store stays as it is. -/
theorem Acts.db_cases (h : g.Acts w a c) :
    c.db = w.db ∨
    (∃ s record, s ∈ g.held ∧
      Store.write w.db s.message (s.recipients w.directory) = (.ok record, c.db) ∧
      .write s.ticket s.message (s.recipients w.directory) true ∈ c.seen) ∨
    ∃ id uri, g.Finishing id uri ∧ Store.remove w.db id uri = (.ok (), c.db) := by
  cases h with
  | storeWorks s record db holding somebody written =>
    exact Or.inr (Or.inl ⟨s, record, by simp [held, holding], written, by simp⟩)
  | forget p ahead target removal leaving db done forgets =>
    rcases forgets with ⟨-, hremove⟩ | ⟨-, rfl⟩
    · exact Or.inr (Or.inr ⟨_, _, ⟨_, target, leaving, rfl, rfl, rfl⟩, hremove⟩)
    · exact Or.inl rfl
  | _ => exact Or.inl rfl

/-- A write that is done is one of what the storing worker holds. -/
theorem Acts.of_write_seen (h : g.Acts w a c) {k : Nat} {m : Message} {targets : List Instance}
    (hseen : .write k m targets true ∈ c.seen) :
    ∃ s record, s ∈ g.held ∧ s.key = (k, m) ∧
      Store.write w.db m targets = (.ok record, c.db) := by
  cases h with
  | storeWorks s record db holding somebody written =>
    simp at hseen
    obtain ⟨rfl, rfl, rfl⟩ := hseen
    exact ⟨s, record, by simp [held, holding], rfl, written⟩
  | _ => simp at hseen

end Generation

/-- Reading a store for a new generation keeps it or purges it. -/
theorem World.db_of_load {w : World} {call : StoreCall} {records : List Store.Record}
    {db : Store.Database} (h : w.load call = (records, db)) :
    (records = [] ∧ db = w.db) ∨ Store.load w.db = (.ok records, db) := by
  cases call with
  | works =>
    unfold load at h
    dsimp only at h
    split at h
    · rename_i hload
      cases h
      exact Or.inr hload
    · rename_i fault hload
      cases h
      exact Or.inl ⟨rfl, Store.load_eq_error hload⟩
  | fails =>
    cases h
    exact Or.inl ⟨rfl, rfl⟩
  | crashes =>
    cases h
    exact Or.inl ⟨rfl, rfl⟩

/-! ### Ids that are submitted once -/

/-- The ids of what was accepted. -/
def acceptedIds (trace : List (Nat × Observation)) : List String :=
  (trace.filterMap (·.2.accepted?)).map (·.message.id)

theorem acceptedIds_nodup_of_suffix {before after : List (Nat × Observation)}
    (h : before <:+ after) (hnodup : (acceptedIds after).Nodup) : (acceptedIds before).Nodup :=
  hnodup.sublist ((h.sublist.filterMap _).map _)

section Reached

variable {may : World → Move → Prop} {d : Directory} {db : Store.Database} {w : World} {n : Nat}
  {g : Generation}

theorem mem_acceptedIn {s : Submission} (hs : (n, .accepted s) ∈ w.trace) :
    s ∈ w.trace.filterMap (·.2.accepted?) :=
  List.mem_filterMap.2 ⟨_, hs, rfl⟩

/-- What is held was accepted. -/
theorem accepted_of_held {s : Submission} (hr : Reaches may (initial d db) w)
    (hg : w.generations[n]? = some g) (hs : s ∈ g.held) :
    ∃ s', (n, .accepted s') ∈ w.trace ∧ s'.key = s.key := by
  have hheld := (held_accounted hr hg).settled s.key
  have hpos : 0 < (g.held.map (·.key)).count s.key :=
    List.count_pos_iff.2 (List.mem_map_of_mem hs)
  have haccepted : s.key ∈ ((w.traceOf n).filterMap accepted?).map (·.key) :=
    List.count_pos_iff.1 (by omega)
  obtain ⟨s', hs', hkey⟩ := List.mem_map.1 haccepted
  exact ⟨s', mem_accepted.1 hs', hkey⟩

theorem acceptedId_of_held {s : Submission} (hr : Reaches may (initial d db) w)
    (hg : w.generations[n]? = some g) (hs : s ∈ g.held) :
    s.message.id ∈ acceptedIds w.trace := by
  obtain ⟨s', hs', hkey⟩ := accepted_of_held hr hg hs
  rw [← show s'.message.id = s.message.id from congrArg (·.2.id) hkey]
  exact List.mem_map_of_mem (mem_acceptedIn hs')

/-- What is held was not settled, under its own ticket or under any other. -/
theorem id_ne_of_settled {n' : Nat} {s : Submission} {o : Observation} {x : Nat × Message}
    (hr : Reaches may (initial d db) w) (hdistinct : (acceptedIds w.trace).Nodup)
    (hg : w.generations[n]? = some g) (hs : s ∈ g.held) (ho : (n', o) ∈ w.trace)
    (hx : o.settled? = some x) : x.2.id ≠ s.message.id := by
  intro hid
  have hheld := (held_accounted hr hg).settled s.key
  have hpos : 0 < (g.held.map (·.key)).count s.key :=
    List.count_pos_iff.2 (List.mem_map_of_mem hs)
  obtain ⟨s₁, hs₁, hkey₁⟩ := accepted_of_held hr hg hs
  obtain ⟨s₂, hs₂, hkey₂⟩ := accepted_of_settled hr ho hx
  have hid₁ : s₁.message.id = s.message.id := congrArg (·.2.id) hkey₁
  have hid₂ : s₂.message.id = x.2.id := congrArg (·.2.id) hkey₂
  obtain rfl : s₁ = s₂ := List.inj_on_of_nodup_map hdistinct (mem_acceptedIn hs₁)
    (mem_acceptedIn hs₂) (by rw [hid₁, hid₂, hid])
  obtain ⟨rfl, -⟩ := accepted_unique hr hs₁ hs₂ rfl
  obtain rfl : s.key = x := hkey₁.symm.trans hkey₂
  -- the key would be held and settled, but was accepted once only
  have hsettled : 0 < ((w.traceOf n).filterMap settled?).count s.key :=
    List.count_pos_iff.2 (List.mem_filterMap.2 ⟨o, mem_traceOf.2 ho, hx⟩)
  have hle := List.nodup_iff_count_le_one.1 (acceptedKeys_nodup hr hg) s.key
  omega

end Reached

/-! ### What was written for a peer -/

/-- The message and the peer of a duty, by id and URI. -/
def Duty.pair (x : Duty) : String × String :=
  (x.message.id, x.target.uri)

/-- The message and the peer that need no further call: the peer took the message or is given up. -/
def Observation.finished? : Observation → Option (String × String)
  | .answered _ m target true => some (m.id, target.uri)
  | .dropped _ m target => some (m.id, target.uri)
  | _ => none

/-- Who is about to be taken off was so before, or is seen to be finished. -/
theorem Generation.Acts.finishing {w : World} {g : Generation} {a : Action} {c : Change}
    (h : g.Acts w a c) {id uri : String} (hfinishing : c.generation.Finishing id uri) :
    g.Finishing id uri ∨ ∃ o ∈ c.seen, o.finished? = some (id, uri) := by
  obtain ⟨t, i, touring, hi, rfl, rfl⟩ := hfinishing
  cases h with
  | callDelivers p ahead target calling =>
    cases touring
    cases hi
    exact Or.inr ⟨_, List.mem_cons_self, rfl⟩
  | announce p ahead target taken =>
    cases touring
    cases hi
    exact Or.inl ⟨_, _, taken, rfl, rfl, rfl⟩
  | giveUpPeer p ahead target failed known unknown =>
    cases touring
    cases hi
    exact Or.inr ⟨_, List.mem_cons_self, rfl⟩
  | forget p ahead target removal leaving db done forgets =>
    rw [Leg.finished?_next touring] at hi
    cases hi
  | putBack p ahead target retrying =>
    rw [reinject_tour] at touring
    rw [Leg.finished?_next touring] at hi
    cases hi
  | take | attempt | callFails | keepPeer =>
    cases touring
    cases hi
  | endTour | callCrashes | forgetCrashes | halt => cases touring
  | _ =>
    simp only [offer_tour, release_tour] at touring
    exact Or.inl ⟨t, i, touring, hi, rfl, rfl⟩

/-! ### What a move does to the store -/

/-- A peer took the message with the id, or is given up for it. -/
def Finished (trace : List (Nat × Observation)) (id uri : String) : Prop :=
  ∃ entry ∈ trace, entry.2.finished? = some (id, uri)

/-- A sending worker is about to take the peer off the message with the id. -/
def World.Finishing (w : World) (id uri : String) : Prop :=
  ∃ (n : Nat) (g : Generation), w.generations[n]? = some g ∧ g.Finishing id uri

section Moves

variable {w w' : World} {move : Move} {later : List (Nat × Observation)}

/-- A move keeps the store or reads it, or writes to it what a storing worker holds, or takes off a
peer that a sending worker was about to take off. -/
theorem World.Moves.db_cases (h : w.Moves move w') (htrace : w'.trace = later ++ w.trace) :
    w'.db = w.db ∨ (∃ records, Store.load w.db = (.ok records, w'.db)) ∨
    (∃ n g s record, w.generations[n]? = some g ∧ s ∈ g.held ∧
      Store.write w.db s.message (s.recipients w.directory) = (.ok record, w'.db) ∧
      (n, .write s.ticket s.message (s.recipients w.directory) true) ∈ later) ∨
    ∃ id uri, w.Finishing id uri ∧ Store.remove w.db id uri = (.ok (), w'.db) := by
  cases h with
  | start settings call records db loaded =>
    rcases db_of_load loaded with ⟨-, rfl⟩ | hload
    · exact Or.inl rfl
    · exact Or.inr (Or.inl ⟨records, hload⟩)
  | act n g a c at_n acts =>
    obtain rfl := List.append_cancel_right htrace
    have hmem : ∀ o ∈ c.seen, (n, o) ∈ (c.seen.map (n, ·)).reverse := fun o ho ↦
      List.mem_reverse.2 (List.mem_map_of_mem ho)
    rcases acts.db_cases with hsame | ⟨s, record, hs, hwritten, hseen⟩ |
      ⟨id, uri, hfinishing, hremove⟩
    · exact Or.inl hsame
    · exact Or.inr (Or.inr (Or.inl ⟨n, g, s, record, at_n, hs, hwritten, hmem _ hseen⟩))
    · exact Or.inr (Or.inr (Or.inr ⟨id, uri, ⟨n, g, at_n, hfinishing⟩, hremove⟩))
  | _ => exact Or.inl rfl

/-- Who is about to be taken off after a move was so before, or is finished by it. -/
theorem World.Moves.finishing (h : w.Moves move w') (htrace : w'.trace = later ++ w.trace)
    {id uri : String} (hfinishing : w'.Finishing id uri) :
    w.Finishing id uri ∨ Finished later id uri := by
  obtain ⟨n, g, hg, t, i, touring, hi, hid, huri⟩ := hfinishing
  cases h with
  | start settings call records db loaded =>
    rcases cases_of_concat hg with ⟨rfl, rfl⟩ | hbefore
    · cases touring
    · exact Or.inl ⟨n, g, hbefore, t, i, touring, hi, hid, huri⟩
  | call k g₁ m targets at_k isOpen inUse =>
    rcases cases_of_set hg with ⟨rfl, rfl⟩ | ⟨-, hbefore⟩
    · exact Or.inl ⟨k, g₁, at_k, t, i, touring, hi, hid, huri⟩
    · exact Or.inl ⟨n, g, hbefore, t, i, touring, hi, hid, huri⟩
  | act k g₁ a c at_k acts =>
    rcases cases_of_set hg with ⟨rfl, rfl⟩ | ⟨-, hbefore⟩
    · obtain rfl := List.append_cancel_right htrace
      rcases acts.finishing ⟨t, i, touring, hi, hid, huri⟩ with hbefore | ⟨o, ho, hpair⟩
      · exact Or.inl ⟨k, g₁, at_k, hbefore⟩
      · exact Or.inr ⟨(k, o), List.mem_reverse.2 (List.mem_map_of_mem ho), hpair⟩
    · exact Or.inl ⟨n, g, hbefore, t, i, touring, hi, hid, huri⟩
  | _ => exact Or.inl ⟨n, g, hg, t, i, touring, hi, hid, huri⟩

/-- A write that is seen is the one that the store was given. -/
theorem World.Moves.write_of_mem (h : w.Moves move w') (htrace : w'.trace = later ++ w.trace)
    {n k : Nat} {m : Message} {targets : List Instance}
    (hwrite : (n, .write k m targets true) ∈ later) :
    ∃ record, Store.write w.db m targets = (.ok record, w'.db) := by
  cases h with
  | start settings call records db loaded =>
    obtain rfl := List.append_cancel_right htrace
    simp [reloadSeen] at hwrite
  | refuse n' g m' targets' at_n closed inUse =>
    have hlater : [_, _] ++ w.trace = later ++ w.trace := htrace
    obtain rfl := List.append_cancel_right hlater
    simp at hwrite
  | call n' g m' targets' at_n isOpen inUse =>
    have hlater : [_] ++ w.trace = later ++ w.trace := htrace
    obtain rfl := List.append_cancel_right hlater
    simp at hwrite
  | act n' g a c at_n acts =>
    obtain rfl := List.append_cancel_right htrace
    simp only [List.mem_reverse, List.mem_map, Prod.mk.injEq] at hwrite
    obtain ⟨o, hseen, -, rfl⟩ := hwrite
    obtain ⟨s, record, -, -, hwritten⟩ := acts.of_write_seen hseen
    exact ⟨record, hwritten⟩
  | _ =>
    obtain rfl := List.self_eq_append_left.1 htrace
    exact absurd hwrite List.not_mem_nil

end Moves

/-- No message is submitted under an id that was submitted before or is in the store. -/
structure FreshIds (db : Store.Database) (trace : List (Nat × Observation)) : Prop where
  distinct : (acceptedIds trace).Nodup
  unstored : ∀ row, db.Stores row → ∀ id ∈ acceptedIds trace, row.id ≠ .text id

theorem FreshIds.of_suffix {db : Store.Database} {before after : List (Nat × Observation)}
    (h : before <:+ after) (hfresh : FreshIds db after) : FreshIds db before where
  distinct := acceptedIds_nodup_of_suffix h hfresh.distinct
  unstored row hrow id hid :=
    hfresh.unstored row hrow id (((h.sublist.filterMap _).map _).subset hid)

theorem freshIds_fresh {trace : List (Nat × Observation)} (h : (acceptedIds trace).Nodup) :
    FreshIds .fresh trace := by
  refine ⟨h, ?_⟩
  rintro row ⟨rows, hrows, hmem⟩
  cases hrows
  cases hmem

/-- A message has to reach a peer: the store held it at the beginning, or was given it since. -/
def World.Promises (w : World) (db : Store.Database) (m : Message) (uri : String) : Prop :=
  db.Holds m uri ∨
    ∃ n k targets, (n, .write k m targets true) ∈ w.trace ∧ ∃ i ∈ targets, i.uri = uri

/-- What has to reach a peer is stored until the peer took it or is given up. -/
def PromisesStored (db : Store.Database) (w : World) : Prop :=
  ∀ m uri, w.Promises db m uri → Finished w.trace m.id uri ∨ w.db.Holds m uri

section Stored

variable {may : World → Move → Prop} {d : Directory} {db : Store.Database} {w w' : World} {n : Nat}
  {g : Generation}

theorem Finished.append {id uri : String} {before later : List (Nat × Observation)}
    (h : Finished before id uri) : Finished (later ++ before) id uri :=
  h.imp fun _ hentry ↦ ⟨List.mem_append_right _ hentry.1, hentry.2⟩

/-- Who is about to be taken off is finished, or was about to be taken off at an earlier moment. -/
theorem finishing_of_reaches {later : List (Nat × Observation)} {id uri : String}
    (hr : Reaches may w w') (htrace : w'.trace = later ++ w.trace)
    (hfinishing : w'.Finishing id uri) : w.Finishing id uri ∨ Finished later id uri := by
  refine Reaches.induct (P := fun w' ↦ ∀ later, w'.trace = later ++ w.trace →
    w'.Finishing id uri → w.Finishing id uri ∨ Finished later id uri) hr (fun _ _ h ↦ Or.inl h)
    (fun {v v' m} hv _ hmove ih ↦ ?_) later htrace hfinishing
  intro later htrace hfinishing
  obtain ⟨before, hbefore⟩ := hv.trace_suffix
  obtain ⟨seen, hseen⟩ := hmove.trace_suffix
  obtain rfl : later = seen ++ before := by
    rw [← hseen, ← hbefore, ← List.append_assoc] at htrace
    exact (List.append_cancel_right htrace).symm
  rcases hmove.finishing hseen.symm hfinishing with hfinishing | hfinished
  · exact (ih before hbefore.symm hfinishing).imp_right Finished.append
  · exact Or.inr (hfinished.imp fun _ hentry ↦ ⟨List.mem_append_left _ hentry.1, hentry.2⟩)

/-- Who is about to be taken off took the message or is given up. -/
theorem finished_of_finishing {id uri : String} (hr : Reaches may (initial d db) w)
    (h : w.Finishing id uri) : Finished w.trace id uri := by
  refine (finishing_of_reaches hr (List.append_nil _).symm h).resolve_left ?_
  rintro ⟨n, g, hg, -⟩
  cases hg

/-- What was seen later and what happened to the store keep what was promised. -/
theorem PromisesStored.later (later : List (Nat × Observation))
    (htrace : w'.trace = later ++ w.trace) (h : PromisesStored db w)
    (hnew : ∀ n k m targets, (n, .write k m targets true) ∈ later → ∀ i ∈ targets,
      w'.db.Holds m i.uri)
    (hold : ∀ m uri, w.Promises db m uri → w.db.Holds m uri →
      Finished w.trace m.id uri ∨ w'.db.Holds m uri) :
    PromisesStored db w' := by
  have hkept : ∀ m uri, w.Promises db m uri → Finished w'.trace m.id uri ∨ w'.db.Holds m uri := by
    intro m uri hpromised
    rw [htrace]
    rcases h m uri hpromised with hfinished | hholds
    · exact Or.inl hfinished.append
    · exact (hold m uri hpromised hholds).imp_left Finished.append
  rintro m uri (hinitial | ⟨n, k, targets, hwrite, i, hi, rfl⟩)
  · exact hkept m uri (Or.inl hinitial)
  · rw [htrace] at hwrite
    rcases List.mem_append.1 hwrite with hnow | hbefore
    · exact Or.inr (hnew n k m targets hnow i hi)
    · exact hkept m i.uri (Or.inr ⟨n, k, targets, hbefore, i, hi, rfl⟩)

/-- What is about to be written has another id than what was promised. -/
theorem id_ne_of_promised {s : Submission} {m : Message} {uri : String}
    (hr : Reaches may (initial d db) w) (hfresh : FreshIds db w.trace)
    (hg : w.generations[n]? = some g) (hs : s ∈ g.held) (hpromised : w.Promises db m uri) :
    m.id ≠ s.message.id := by
  rcases hpromised with hinitial | ⟨n', k, targets, hwrite, -⟩
  · have haccepted := acceptedId_of_held hr hg hs
    exact fun heq ↦ hfresh.unstored _ hinitial.1 _ haccepted (congrArg Store.Cell.text heq)
  · exact id_ne_of_settled hr hfresh.distinct hg hs hwrite rfl

theorem PromisesStored.of_move {move : Move} (hr : Reaches may (initial d db) w)
    (hfresh : FreshIds db w.trace) (hmove : w.Moves move w') (h : PromisesStored db w) :
    PromisesStored db w' := by
  obtain ⟨later, htrace⟩ := hmove.trace_suffix
  refine h.later later htrace.symm (fun n k m targets hwrite i hi ↦ ?_)
    fun m uri hpromised hholds ↦ ?_
  · obtain ⟨record, hwritten⟩ := hmove.write_of_mem htrace.symm hwrite
    exact Store.holds_of_write hwritten hi
  · rcases hmove.db_cases htrace.symm with hsame | ⟨records, hload⟩ |
      ⟨n, g, s, record, hg, hs, hwritten, -⟩ | ⟨id, uri', hfinishing, hremove⟩
    · exact Or.inr (hsame ▸ hholds)
    · exact Or.inr (Store.holds_load hload hholds)
    · exact Or.inr (Store.holds_write hwritten (id_ne_of_promised hr hfresh hg hs hpromised) hholds)
    · by_cases hpair : m.id = id ∧ uri = uri'
      · obtain ⟨rfl, rfl⟩ := hpair
        exact Or.inl (finished_of_finishing hr hfinishing)
      · exact Or.inr (Store.holds_remove hremove hpair hholds)

/-- Whatever the workers of all generations do, what has to reach a peer is stored. -/
theorem promisesStored (hr : Reaches may (initial d db) w) (hfresh : FreshIds db w.trace) :
    PromisesStored db w := by
  refine Reaches.induct (P := fun w ↦ FreshIds db w.trace → PromisesStored db w) hr ?_
    (fun {v v' m} hv _ hmove ih hfresh ↦ ?_) hfresh
  · rintro _ m uri (hinitial | ⟨n, k, targets, hwrite, -⟩)
    · exact Or.inr hinitial
    · exact absurd hwrite List.not_mem_nil
  · have hbefore := hfresh.of_suffix hmove.trace_suffix
    exact (ih hbefore).of_move hv hbefore hmove

theorem generations_start {v : World} {settings : Settings} {records : List Store.Record}
    {db' : Store.Database} (hload : Store.load v.db = (.ok records, db')) :
    (v.start settings .works).generations =
      v.generations ++ [newGeneration settings (numbered v.nextTicket records)] := by
  have hloaded : v.load .works = (records, db') := by
    simp only [load, hload]
  rw [start, hloaded]

theorem pending_newGeneration (settings : Settings) (records : List (Nat × Store.Record)) :
    (newGeneration settings records).pending = Reload.duties ⟨records, false⟩ := by
  simp [Generation.pending, newGeneration, queued, Queue.make]

theorem exists_pending_of_load {m : Message} {uri : String} {settings : Settings} {first : Nat}
    {records : List Store.Record} {db' : Store.Database}
    (hload : Store.load db = (.ok records, db')) (hyear : DateText.FourDigitYear m.date)
    (hholds : db.Holds m uri) : ∃ x ∈ (newGeneration settings (numbered first records)).pending,
      x.message = m.asRead ∧ x.target.uri = uri := by
  obtain ⟨record, hrecord, hmessage, i, hi, huri⟩ := Store.mem_load_of_holds hload hyear hholds
  obtain ⟨k, hk⟩ := exists_numbered hrecord first
  refine ⟨⟨k, record.message, i⟩, ?_, hmessage, huri⟩
  rw [pending_newGeneration]
  exact List.mem_flatMap.2 ⟨(k, record), hk, List.mem_map_of_mem hi⟩

/-- A generation that starts owes what the store holds. -/
theorem exists_pending_of_start {v : World} {m : Message} {uri : String} {settings : Settings}
    {records : List Store.Record} {db' : Store.Database}
    (hload : Store.load v.db = (.ok records, db')) (hyear : DateText.FourDigitYear m.date)
    (hholds : v.db.Holds m uri) :
    ∃ g, (v.start settings .works).generations = v.generations ++ [g] ∧
      ∃ x ∈ g.pending, x.message = m.asRead ∧ x.target.uri = uri :=
  ⟨_, generations_start hload, exists_pending_of_load hload hyear hholds⟩

/-- **No target is lost that the store was given.** As long as no id is submitted that was submitted
before or is stored, whatever was stored for a peer is there with its message until the peer took it
or is given up, in whatever state the workers of all generations are and whichever calls failed. And
a generation that starts over this store, in the same world or after a crash, owes it again, as it
is read of its row. -/
theorem no_target_lost {m : Message} {uri : String} (hr : Reachable (initial d db) w)
    (hfresh : FreshIds db w.trace) (hpromised : w.Promises db m uri)
    (hopen : ∀ entry ∈ w.trace, entry.2.finished? ≠ some (m.id, uri)) :
    w.db.Holds m uri ∧
    ∀ v : World, v.db = w.db → DateText.FourDigitYear m.date → ∀ settings records db',
      Store.load v.db = (.ok records, db') →
      ∃ g, (v.start settings .works).generations = v.generations ++ [g] ∧
        ∃ x ∈ g.pending, x.message = m.asRead ∧ x.target.uri = uri := by
  have hholds : w.db.Holds m uri := by
    rcases promisesStored hr hfresh m uri hpromised with ⟨entry, hentry, hfinished⟩ | hholds
    · exact absurd hfinished (hopen entry hentry)
    · exact hholds
  refine ⟨hholds, fun v hv hyear settings records db' hload ↦ ?_⟩
  exact exists_pending_of_start hload hyear (hv ▸ hholds)

end Stored

/-- One of two peers took a message and the other did not, and the pipeline is dropped and started
again. -/
def restartedMoves : List Move :=
  [.start { retryDelay := 0 } .works,
    .submit 0 { (default : Message) with id := "1" } [⟨"a", "http://a"⟩, ⟨"b", "http://b"⟩],
    .act 0 (.arrive 0), .act 0 .accept, .act 0 .receive, .act 0 (.store .works), .act 0 .forward,
    .act 0 .take, .act 0 .attempt, .act 0 (.answer .delivers), .act 0 .announce,
    .act 0 (.forget .works), .act 0 .attempt, .act 0 (.answer .fails), .act 0 .lookUp,
    .act 0 .putBack, .act 0 .drop, .act 0 .halt, .start {} .works]

theorem no_target_lost_of_restart :
    ∃ w, Reachable (initial ⟨[]⟩ .fresh) w ∧ w.generations.length = 2 ∧
      w.db.Holds { (default : Message) with id := "1" } "http://b" ∧
      ∃ g, ((initial ⟨[]⟩ w.db).start {} .works).generations = [g] ∧
        ∃ x ∈ g.pending, x.message.id = "1" ∧ x.target.uri = "http://b" := by
  have hrun : ((initial ⟨[]⟩ .fresh).run (fun _ _ ↦ True) restartedMoves).any (fun w ↦
      w.generations[0]?.any fun _ ↦ w.generations.length = 2 ∧ acceptedIds w.trace = ["1"] ∧
        (w.trace.any fun entry ↦ entry.2 = .write 0 { (default : Message) with id := "1" }
          [⟨"a", "http://a"⟩, ⟨"b", "http://b"⟩] true) ∧
        (w.trace.all fun entry ↦ entry.2.finished? ≠ some ("1", "http://b")) ∧
        (Store.load w.db).1.isOk) = true := by
    decide +kernel
  obtain ⟨w, g, hr, -, htest⟩ := exists_of_run hrun
  obtain ⟨hlength, hids, hwrite, hopen, hloads⟩ := of_decide_eq_true htest
  have hfresh : FreshIds .fresh w.trace := freshIds_fresh (hids ▸ by decide)
  obtain ⟨⟨n, o⟩, hentry, ho⟩ := List.any_eq_true.1 hwrite
  obtain rfl := of_decide_eq_true ho
  have hkept := no_target_lost hr hfresh
    (Or.inr ⟨n, 0, _, hentry, ⟨"b", "http://b"⟩, by simp, rfl⟩)
    fun entry hmem ↦ of_decide_eq_true (List.all_eq_true.1 hopen entry hmem)
  refine ⟨w, hr, hlength, hkept.1, ?_⟩
  obtain ⟨records, hrecords⟩ : ∃ records, (Store.load w.db).1 = .ok records := by
    cases hload : (Store.load w.db).1 with
    | ok records => exact ⟨records, rfl⟩
    | error fault => simp [hload, Except.isOk, Except.toBool] at hloads
  obtain ⟨g, hg, x, hx, hmessage, huri⟩ := hkept.2 (initial ⟨[]⟩ w.db) rfl (by decide) {} records
    (Store.load w.db).2 (Prod.ext hrecords rfl)
  exact ⟨g, hg, x, hx, congrArg Message.id hmessage, huri⟩

end PeerRelay.Delivery
