import PeerRelay.Proofs.Daemon.Requests
import PeerRelay.Proofs.Settings.Soundness
import PeerRelay.Proofs.Store.Refinement

/-!
# Messages for everyone under a sound configuration

A message that is handed to the pipeline without targets is for everyone in the directory, and the
directory of a daemon are its configured peers. The store takes each URI of a list once, which
makes a difference only if a URI is repeated, and a sound configuration repeats none
(`distinctByUri_eq_self`). So a message for everyone is written for the configured peers, and what
is read of it afterwards are these peers in their order (`storedFor_of_write`).

That the write is the one of the message follows from its ticket, which only its call and what comes
of it have (`moment_of_write`); that the directory is the configured one still, from the moves, as
none of them registers or takes out a peer. A write that the store is asked for succeeds as long as
both tables are there, and no move takes a table away (`hasTables_of_reaches`).
-/

namespace PeerRelay

/-! ### The store -/

namespace Store

/-- The message is stored, and the peers that are read for it are the given ones. -/
def Database.StoredFor (db : Database) (m : Message) (l : List Instance) : Prop :=
  db.Stores (.ofMessage m) ∧ ∃ targets, db.targets = some targets ∧
    (targetsOf m.id targets).mapM TargetRow.instance? = .ok l

/-- The tables of messages and of peers are there. -/
structure Database.HasTables (db : Database) : Prop where
  messages : db.messages.isSome
  targets : db.targets.isSome

variable {db db' : Database} {m : Message} {l : List Instance}

theorem storedFor_of_write {record : Record} (h : write db m l = (.ok record, db')) :
    db'.StoredFor m (distinctByUri l) := by
  obtain ⟨-, messages, targets, -, -, rfl⟩ := write_eq_ok h
  refine ⟨⟨_, rfl, mem_upsert_self _ _⟩, _, rfl, Listing.read ?_⟩
  rw [rowsOf_written_self]
  exact Listing.targetRows _ _ _

theorem Database.HasTables.exists_write (h : db.HasTables) (m : Message) (hl : l ≠ []) :
    ∃ db', write db m l = (.ok ⟨m, distinctByUri l⟩, db') := by
  obtain ⟨messages, hm⟩ := Option.isSome_iff_exists.1 h.messages
  obtain ⟨targets, ht⟩ := Option.isSome_iff_exists.1 h.targets
  exact ⟨_, write_of_tables hm ht hl⟩

theorem hasTables_of_write {record : Record} (h : write db m l = (.ok record, db')) :
    db'.HasTables := by
  obtain ⟨-, messages, targets, -, -, rfl⟩ := write_eq_ok h
  exact ⟨rfl, rfl⟩

theorem hasTables_of_remove {id uri : String} (h : remove db id uri = (.ok (), db')) :
    db'.HasTables := by
  obtain ⟨messages, targets, -, -, rfl⟩ := remove_eq_ok h
  exact ⟨rfl, rfl⟩

theorem hasTables_of_load {records : List Record} (h : load db = (.ok records, db')) :
    db'.HasTables := by
  obtain ⟨messages, targets, read, hm, ht, -, -, rfl⟩ := load_eq_ok h
  exact ⟨by simp [purge, hm], by simp [purge, ht]⟩

end Store

/-! ### The pipeline -/

namespace Delivery

open Observation World

/-- What the store is asked to write is what the storing worker holds, for its recipients. -/
theorem Generation.Acts.of_write {w : World} {g : Generation} {a : Action} {c : Change}
    (h : g.Acts w a c) {k : Nat} {m : Message} {l : List Instance} {done : Bool}
    (hseen : .write k m l done ∈ c.seen) :
    ∃ s, g.storing = .holding s ∧ k = s.ticket ∧ m = s.message ∧ l = s.recipients w.directory ∧
      (done = true → a = .store .works ∧ ∃ record, Store.write w.db m l = (.ok record, c.db)) := by
  cases h with
  | storeCrashes s holding somebody =>
    simp at hseen
    obtain ⟨rfl, rfl, rfl, rfl⟩ := hseen
    exact ⟨s, holding, rfl, rfl, rfl, fun hdone ↦ nomatch hdone⟩
  | storeFails s call holding somebody =>
    simp at hseen
    obtain ⟨rfl, rfl, rfl, rfl⟩ := hseen
    exact ⟨s, holding, rfl, rfl, rfl, fun hdone ↦ nomatch hdone⟩
  | storeWorks s record db holding somebody written =>
    simp at hseen
    obtain ⟨rfl, rfl, rfl, rfl⟩ := hseen
    exact ⟨s, holding, rfl, rfl, rfl, fun _ ↦ ⟨rfl, record, written⟩⟩
  | _ => simp at hseen

/-- With a store that takes it, what the storing worker holds is written. -/
theorem Generation.storeSubmission_of_write {g : Generation} {d : Directory} {s : Submission}
    {db db' : Store.Database} {record : Store.Record} (hsome : s.recipients d ≠ [])
    (h : Store.write db s.message (s.recipients d) = (.ok record, db')) :
    .write s.ticket s.message (s.recipients d) true ∈ (g.storeSubmission db d s .works).seen := by
  rw [storeSubmission]
  split
  · rename_i hnobody
    exact absurd hnobody hsome
  · rw [h]
    exact List.mem_append_left _ List.mem_cons_self

section Reached

variable {may : World → Move → Prop} {d : Directory} {db : Store.Database} {w : World} {n n' : Nat}
  {g : Generation} {s : Submission} {m : Message} {l : List Instance} {done : Bool}

/-- No move takes a table away. -/
theorem hasTables_of_reaches (hr : Reaches may (initial d db) w) (h : db.HasTables) :
    w.db.HasTables := by
  refine Reaches.induct (P := (·.db.HasTables)) hr h fun _ _ hmove ih ↦ ?_
  obtain ⟨later, htrace⟩ := hmove.trace_suffix
  rcases hmove.db_cases htrace.symm with hsame | ⟨records, hload⟩ |
    ⟨n, g, s, record, -, -, hwrite, -⟩ | ⟨id, uri, -, hremove⟩
  · exact hsame ▸ ih
  · exact Store.hasTables_of_load hload
  · exact Store.hasTables_of_write hwrite
  · exact Store.hasTables_of_remove hremove

/-- The store is asked to write a submission while its storing worker holds it, and for nobody but
its recipients of that moment. -/
theorem moment_of_write (hr : Reaches may (initial d db) w) (hs : (n, .called s) ∈ w.trace)
    (hwrite : (n', .write s.ticket m l done) ∈ w.trace) :
    n' = n ∧ m = s.message ∧ ∃ u g a c, Moment may (initial d db) u w n g a c ∧
      l = s.recipients u.directory ∧
      (done = true → a = .store .works ∧ ∃ record, Store.write u.db m l = (.ok record, c.db)) := by
  obtain ⟨u, g, a, c, hmoment, hseen⟩ := exists_moment_of_mem hr (mem_traceOf.2 hwrite) rfl
  obtain ⟨s', holding, hticket, rfl, hl, hdone⟩ := hmoment.acts.of_write hseen
  obtain ⟨u', hmove, -, hlater⟩ := hmoment.goesOn
  -- what was held then was called, and the ticket tells that it is the same call
  have hs' : (n', .called s') ∈ w.trace :=
    hlater.trace_suffix.subset ((moves_of_move hmove).trace_suffix.subset
      (called_of_mem_accepted hmoment.reached
        (accepted_of_holding hmoment.reached hmoment.generation holding)))
  have hentry := eq_of_issued hr hs' hs (congrArg some hticket.symm) rfl
  obtain ⟨rfl, hcalled⟩ := Prod.mk.inj hentry
  obtain rfl := Observation.called.inj hcalled
  exact ⟨rfl, rfl, u, g, a, c, hmoment, hl, hdone⟩

/-! ### Everyone -/

/-- What becomes of a submission that is for some peers, as they are all who is known. -/
structure ForEveryone (peers : List Instance) (initial w : World) (n : Nat) (s : Submission) :
    Prop where
  /-- The store is asked to write it for these peers, and for no other ones. -/
  asked : ∀ n' m l done, (n', .write s.ticket m l done) ∈ w.trace →
    n' = n ∧ m = s.message ∧ l = peers
  /-- Once the store did, it was there for them, in their order, and was announced so. -/
  stored : (n, .write s.ticket s.message peers true) ∈ w.trace →
    (∃ u g c, Moment (fun _ _ ↦ True) initial u w n g (.store .works) c ∧
      c.db.StoredFor s.message peers) ∧
    history (stored? s.ticket) (w.traceOf n) = peers.map (s.message, ·)
  /-- A store that works does. -/
  possible : initial.db.HasTables → ∀ g, w.generations[n]? = some g → g.storing = .holding s →
    ∃ w', w.move (.act n (.store .works)) = some w' ∧
      (n, .write s.ticket s.message peers true) ∈ w'.trace

theorem recipients_of_everyone (hkeeps : KeepsPeers may) (hr : Reaches may (initial d db) w)
    (hall : s.targets = []) : s.recipients w.directory = d.instances := by
  rw [Submission.recipients, hall, directory_eq hkeeps hr]
  rfl

theorem forEveryone (hkeeps : KeepsPeers may) (hr : Reaches may (initial d db) w)
    (hnodup : (d.instances.map (·.uri)).Nodup) (hsome : d.instances ≠ [])
    (hs : (n, .called s) ∈ w.trace) (hall : s.targets = []) :
    ForEveryone d.instances (initial d db) w n s where
  asked n' m l done hwrite := by
    obtain ⟨hn, hm, u, g, a, c, hmoment, rfl, -⟩ := moment_of_write hr hs hwrite
    exact ⟨hn, hm, recipients_of_everyone hkeeps hmoment.reached hall⟩
  stored hwrite := by
    have hany : Reachable (initial d db) w := hr.mono fun _ _ _ ↦ trivial
    obtain ⟨g, hg⟩ := exists_generation hr hwrite
    refine ⟨?_, ?_⟩
    · obtain ⟨-, -, u, g, a, c, hmoment, -, hdone⟩ := moment_of_write hany hs hwrite
      obtain ⟨rfl, record, hwritten⟩ := hdone rfl
      have hstored := Store.storedFor_of_write hwritten
      rw [Store.distinctByUri_eq_self hnodup] at hstored
      exact ⟨u, g, c, hmoment, hstored⟩
    · rw [stored_eq hany hg (mem_traceOf.2 hwrite), announced,
        Store.distinctByUri_eq_self hnodup]
  possible htables g hg holding := by
    have hrecipients := recipients_of_everyone hkeeps hr hall
    obtain ⟨db', hwritten⟩ := (hasTables_of_reaches hr htables).exists_write s.message hsome
    rw [← hrecipients] at hsome hwritten
    have hseen := g.storeSubmission_of_write hsome hwritten
    have hact : g.act w (.store .works) =
        some (g.storeSubmission w.db w.directory s .works) := by
      simp only [Generation.act, Generation.store, holding]
    refine ⟨_, by simp only [World.move, World.act, hg, hact, Option.map_some]; rfl,
      List.mem_append_left _ ?_⟩
    rw [← hrecipients]
    exact List.mem_reverse.2 (List.mem_map_of_mem hseen)

end Reached

end Delivery

/-! ### The configured peers -/

namespace Daemon

open Settings Delivery World

/-- **A check accepts a configuration if it is sound, and otherwise reports its first fault; under
an accepted one a message for everyone is stored for the configured peers.** This holds however the
form of a URI is judged. The peers are all of those that are configured and no other ones, each of
them once and in their order, whatever is done to the started pipeline, as long as no peer is
registered or taken out. The store is asked to write the message for them while its storing worker
holds it, and does unless it fails or a table is missing. -/
theorem sound_or_refused (check : UriCheck) (c : Config) :
    (c.validateWith check = .ok () ↔ c.Sound check) ∧
    (∀ fault, c.validateWith check = .error fault ↔ c.FirstFault check fault) ∧
    (c.validateWith check = .ok () → c.peers ≠ [] →
      ∀ script db may w, KeepsPeers may → Reaches may (startPipeline c script db).world w →
        ∀ n s, (n, .called s) ∈ w.trace → s.targets = [] →
          ForEveryone c.peers (initial ⟨c.peers⟩ db) w n s) := by
  refine ⟨validateWith_eq_ok, fun fault ↦ validateWith_eq_error, ?_⟩
  intro hvalid hsome script db may w hkeeps hr n s hs hall
  -- the start of the pipeline leaves the peers alone as well
  have hstarted := (reaches_startPipeline c script db).mono fun v m ↦ Or.inl (b := may v m)
  have hreached := hstarted.trans (hr.mono fun _ _ ↦ Or.inr)
  have hkeeps' : KeepsPeers fun v m ↦ GoesOn v m ∨ may v m := fun v ↦
    ⟨fun i hmay ↦ hmay.elim id ((hkeeps v).1 i), fun uri hmay ↦ hmay.elim id ((hkeeps v).2 uri)⟩
  exact forEveryone hkeeps' hreached (validateWith_eq_ok.1 hvalid).peers.distinct hsome hs hall

/-- An instance with two peers. -/
def twoPeers : Config where
  peers := [⟨"b", "http://b"⟩, ⟨"c", "http://c"⟩]

/-- An instance with a peer that is listed twice, a peer that is the instance itself, and no room in
a queue. -/
def threeFaults : Config where
  peers := [⟨"b", "http://b"⟩, ⟨"c", "http://b"⟩, localInstance]
  limits := { storeCapacity := 0 }

theorem sound_or_refused_of_twoPeers :
    threeFaults.validateWith Url.check = .error (.repeatedPeer "http://b") ∧
    twoPeers.validateWith Url.check = .ok () ∧
    ∃ w, Reaches (RequestMoves default []) (startPipeline twoPeers {} .fresh).world w ∧
      (∃ u g c,
        Moment (fun _ _ ↦ True) (initial ⟨twoPeers.peers⟩ .fresh) u w 0 g (.store .works) c ∧
        c.db.StoredFor default twoPeers.peers) ∧
      history (Observation.stored? 0) (w.traceOf 0) = twoPeers.peers.map (default, ·) := by
  have hurl : ∀ i ∈ twoPeers.self :: twoPeers.peers, Url.check i.uri = .ok () := by decide +kernel
  rw [List.forall_mem_cons] at hurl
  have hfault : threeFaults.FirstFault Url.check (.repeatedPeer "http://b") := by
    refine .peer [⟨"b", "http://b"⟩] ⟨"c", "http://b"⟩ [localInstance] _ hurl.1 rfl ?_ ?_
    · exact ⟨fun peer hpeer ↦ hurl.2 peer (List.mem_cons.2 (Or.inl (List.mem_singleton.1 hpeer))),
        by decide, by decide⟩
    · exact .repeatedPeer (hurl.2 ⟨"b", "http://b"⟩ List.mem_cons_self) (by decide)
        List.mem_cons_self
  have hsound : twoPeers.Sound Url.check :=
    ⟨hurl.1, ⟨hurl.2, by decide, by decide⟩, by decide, by decide⟩
  have hvalid := (sound_or_refused Url.check twoPeers).1.2 hsound
  have hrun : (((startPipeline twoPeers {} .fresh).world.submit 0 default []).any fun w₁ ↦
      (w₁.run GoesOn [.act 0 (.arrive 0), .act 0 .accept, .act 0 .receive,
        .act 0 (.store .works)]).any fun w ↦
          (0, .called ⟨0, default, []⟩) ∈ w.trace ∧
            (0, .write 0 default twoPeers.peers true) ∈ w.trace) = true := by
    decide +kernel
  obtain ⟨w₁, hsubmit, hrun⟩ := (Option.any_eq_true _ _).1 hrun
  obtain ⟨w, hw, htest⟩ := (Option.any_eq_true _ _).1 hrun
  obtain ⟨hcalled, hwrite⟩ := of_decide_eq_true htest
  have hr : Reaches (RequestMoves default []) (startPipeline twoPeers {} .fresh).world w := by
    have huntouched := untouched_of_goesOn (reaches_startPipeline twoPeers {} .fresh)
    have hmoved : Reaches (RequestMoves default []) (startPipeline twoPeers {} .fresh).world w₁ :=
      .step (.submit 0 default []) .start (Or.inr ⟨huntouched, 0, rfl⟩) hsubmit
    exact hmoved.trans ((reaches_of_run .start hw).mono fun _ _ ↦ Or.inl)
  have hall := (sound_or_refused Url.check twoPeers).2.2 hvalid (by decide) _ _ _ w
    keepsPeers_requestMoves hr 0 _ hcalled rfl
  have hrefused := ((sound_or_refused Url.check threeFaults).2.1 _).2 hfault
  exact ⟨hrefused, hvalid, w, hr, hall.stored hwrite⟩

end Daemon

end PeerRelay
