import PeerRelay.Proofs.Daemon.Broadcast
import PeerRelay.Proofs.Recovery.Answers
import PeerRelay.Proofs.Recovery.Selection
import PeerRelay.Proofs.Wire.Restarts

/-!
# Whom a recovery request is for

The peers of a recovery request are told in three places. The selection has a peer as often as it is
mentioned, the request has the set of their URIs, where no URI stands for everyone, and the store
has each URI once. They come to the same under a configuration that repeats no URI: a selection is
not empty if there are peers, so that the request never stands for everyone by accident
(`isReceiver_iff_mem`), and what the store is left with are the selected peers
(`chosen_of_selectPeers`).

That the request is written for the selection follows from the moves, as long as nothing else is
handed in (`addressed_of_requestMoves`), and the command makes such moves, whatever comes of it in
the end (`reaches_requestRecovery`). Who is called with it was written for. What arrives of the
request has its receivers, if it comes from the wire or out of the store as well
(`Arrives.receivers`).
-/

namespace PeerRelay

/-! ### What arrives -/

/-- What a peer may get of a message: the message from its sender, as it is or from the wire, or
what it gets so of the message that the store reads of its row. -/
inductive Arrives (sender : String) : Message → Received → Prop where
  | handed {m : Message} : Arrives sender m (m.receivedFrom sender)
  | sent {m : Message} {r : Received} (hreceive : (Wire.Body.ofMessage m sender).receive = .ok r) :
      Arrives sender m r
  | reloaded {m m' : Message} {row : Store.TypedRow} {r : Received}
      (hrow : (Store.MessageRow.ofMessage m).typed = .ok row) (hread : row.message? = some m')
      (harrives : Arrives sender m' r) : Arrives sender m r

/-- The receivers of a message do not change on the way. -/
theorem Arrives.receivers {sender : String} {m : Message} {r : Received}
    (h : Arrives sender m r) : r.message.receivers = m.receivers := by
  induction h with
  | handed => rfl
  | sent hreceive =>
    obtain ⟨-, rfl⟩ := Wire.Body.receive_ofMessage_eq_ok.1 hreceive
    rfl
  | reloaded hrow hread _ ih =>
    obtain rfl := Except.ok.inj ((Store.typed_written _).symm.trans hrow)
    obtain rfl := Store.eq_asRead_of_message? hread
    exact ih

/-- A request that goes to somebody is for the instances that it goes to. -/
theorem Recovery.Window.isReceiver_iff_mem {window : Recovery.Window} {stamp : Message.Stamp}
    {receivers : List String} {sender uri : String} {r : Received} (hsome : receivers ≠ [])
    (h : Arrives sender (window.request stamp receivers) r) :
    r.isReceiver uri = true ↔ uri ∈ receivers := by
  have hreceivers : r.message.receivers = Text.TextSet.ofList receivers := h.receivers
  rw [Received.isReceiver_iff hreceivers, or_iff_right hsome]

namespace Daemon

open Calendar Settings Delivery World

/-! ### The run of a request -/

section Run

variable {db : Store.Database} {targets : List Instance} {request : Message} {d : Directory}
  {w : World}

/-- Whatever comes of a command, it handed in the request and nothing else. -/
theorem reaches_requestRecovery (config : Config) (script : Script) (db : Store.Database)
    (window : Recovery.Window) (stamp : Message.Stamp) (targets : List Instance) :
    Reaches (RequestMoves (window.request stamp (targets.map (·.uri))) targets)
      (initial ⟨config.peers⟩ db)
      (requestRecovery (startPipeline config script db) window stamp targets).2.world := by
  have hstarted := reaches_startPipeline config script db
  rw [requestRecovery]
  generalize window.request stamp (targets.map (·.uri)) = request
  generalize startPipeline config script db = s₀ at hstarted ⊢
  have hallows := allowsActs_requestMoves request targets
  -- only an accepted request is followed by a shutdown
  split
  · rename_i hsubmit
    have hr := (exists_called_of_submit hstarted hsubmit).1
    split
    · rename_i hshutdown
      exact hr.trans (Stage.leads_of_shutdown hallows hshutdown).1.reaches
    · rename_i hshutdown
      exact hr.trans (Stage.leads_of_shutdown hallows hshutdown).1.reaches
    · exact hr
  · rename_i hsubmit
    exact (exists_called_of_submit hstarted hsubmit).1
  · rename_i hsubmit
    exact (exists_called_of_submit hstarted hsubmit).1
  · exact hstarted.mono fun _ _ ↦ Or.inl

/-- What a pipeline does with a request that is for the given peers. -/
structure Addressed (initial : World) (request : Message) (asked : List Instance) (w : World) :
    Prop where
  /-- The store is asked to write nothing else. Once it did, the request was stored for these peers,
  in their order, and was announced so. -/
  written : ∀ n k m l done, (n, .write k m l done) ∈ w.trace → m = request ∧
    (done = true →
      (∃ u g c, Moment (fun _ _ ↦ True) initial u w n g (.store .works) c ∧
        Store.write u.db request l = (.ok ⟨request, asked⟩, c.db) ∧
        c.db.StoredFor request asked) ∧
      history (Observation.stored? k) (w.traceOf n) = asked.map (request, ·))
  /-- What is called with it is one of these peers. -/
  called : ∀ n s n' m i f, (n, .called s) ∈ w.trace →
    (n', .attempt s.ticket m i f) ∈ w.trace → m = request ∧ i ∈ asked

theorem addressed_of_requestMoves
    (hr : Reaches (RequestMoves request targets) (initial d db) w) (hsome : targets ≠ [])
    (hkept : targets ⊆ distinctByUri targets) :
    Addressed (initial d db) request (distinctByUri targets) w := by
  have hany : Reachable (initial d db) w := hr.mono fun _ _ _ ↦ trivial
  have hsole := sole_of_requestMoves hr
  -- what is written is a call, and so the request
  have hwritten : ∀ {n s n' m l done}, (n, .called s) ∈ w.trace →
      (n', .write s.ticket m l done) ∈ w.trace → m = request ∧ l = targets ∧
        (done = true → ∃ u g c record, Moment (fun _ _ ↦ True) (initial d db) u w n' g
          (.store .works) c ∧ Store.write u.db request targets = (.ok record, c.db)) := by
    intro n s n' m l done hs hwrite
    obtain ⟨rfl, rfl⟩ := hsole.eq n s hs
    obtain ⟨rfl, rfl, u, g, a, c, hmoment, rfl, hdone⟩ := moment_of_write hany hs hwrite
    have hrecipients : s.recipients u.directory = s.targets := by
      rw [Submission.recipients, if_neg (by simpa using hsome)]
    rw [hrecipients] at hdone
    refine ⟨rfl, hrecipients, fun htrue ↦ ?_⟩
    obtain ⟨rfl, record, hrecord⟩ := hdone htrue
    exact ⟨u, g, c, record, hmoment, hrecord⟩
  constructor
  · intro n k m l done hwrite
    obtain ⟨s, hs, hkey⟩ := accepted_of_settled hr hwrite rfl
    obtain ⟨rfl, rfl⟩ := Prod.mk.inj hkey
    have hcalled := called_of_mem_accepted hr hs
    obtain ⟨hrequest, rfl, hdone⟩ := hwritten hcalled hwrite
    refine ⟨hrequest, ?_⟩
    rintro rfl
    obtain ⟨u, g, c, record, hmoment, hrecord⟩ := hdone rfl
    obtain ⟨rfl, -⟩ := Store.write_eq_ok hrecord
    obtain ⟨g', hg'⟩ := exists_generation hr hwrite
    refine ⟨⟨u, g, c, hmoment, hrecord, Store.storedFor_of_write hrecord⟩, ?_⟩
    rw [stored_eq hany hg' (mem_traceOf.2 hwrite), announced, hrequest]
  · intro n s n' m i f hs hattempt
    obtain ⟨after, before, htrace⟩ := List.append_of_mem (mem_traceOf.2 hattempt)
    have hbefore : ∀ o ∈ before, (n', o) ∈ w.trace := by
      intro o ho
      rw [← mem_traceOf, htrace]
      exact List.mem_append_right _ (List.mem_cons_of_mem _ ho)
    rcases written_or_reloaded hany htrace with
      ⟨recipients, done, hwrite, hi⟩ | ⟨record, hreloaded, -⟩
    · obtain ⟨hrequest, rfl, -⟩ := hwritten hs (hbefore _ hwrite)
      exact ⟨hrequest, hkept hi⟩
    · -- a ticket of a record that was loaded is not that of a call
      cases eq_of_issued hany hs (hbefore _ hreloaded) rfl rfl

/-- A command that succeeds asked the store to write the request for its targets. -/
theorem Succeeded.exists_write {peers : List Instance} (h : Succeeded peers db request targets w)
    (hsome : targets ≠ []) : ∃ n k done, (n, .write k request targets done) ∈ w.trace := by
  obtain ⟨n, s, hs, hdrained⟩ := h.drained
  obtain ⟨rfl, rfl, -⟩ := (sole_of_requestMoves h.reached).of_accepted h.reached hs
  obtain ⟨done, hwrite⟩ := write_of_drained h.reached hs hsome hdrained
  exact ⟨n, s.ticket, done, hwrite⟩

end Run

/-! ### The configured peers -/

/-- **A recovery request is for exactly the peers that it is stored for.** The configuration was
accepted and has a peer; the peers of the request are mentioned by their URIs, in any order and as
often as one likes.

- The selection fails if and only if a URI is mentioned that no peer has, and reports the first one.
- Otherwise there are peers that are asked: all of them if nobody is mentioned, and else the peer of
  each URI, in the order in which they are mentioned first. In every run in which the request is
  handed in and nothing else, the store is asked to write nothing but the request, and once it did
  the request was stored for the peers that are asked, in their order. A run that succeeds did ask
  the store. Whatever comes of the command, it is such a run, and one that succeeds if the command
  says that the request is queued.
- What arrives of the request is for a configured peer if and only if the peer is asked. -/
theorem request_for_stored_peers (c : Config) (uris : List String) (hvalid : c.validate = .ok ())
    (hsome : c.peers ≠ []) :
    (∀ fault, Recovery.selectPeers c.peers uris = .error fault ↔
      ∃ uri, uris.find? (fun u ↦ u ∉ c.peers.map (·.uri)) = some uri ∧
        fault = .unknownPeer uri) ∧
    ((∃ fault, Recovery.selectPeers c.peers uris = .error fault) ↔
      ∃ uri ∈ uris, uri ∉ c.peers.map (·.uri)) ∧
    ∀ targets, Recovery.selectPeers c.peers uris = .ok targets →
      ∃ asked, Recovery.Chosen c.peers uris asked ∧ ∀ window stamp,
        (∀ db w, Reaches (RequestMoves (window.request stamp (targets.map (·.uri))) targets)
          (initial ⟨c.peers⟩ db) w →
            Addressed (initial ⟨c.peers⟩ db) (window.request stamp (targets.map (·.uri))) asked w ∧
            (Succeeded c.peers db (window.request stamp (targets.map (·.uri))) targets w →
              ∃ n k done, (n, .write k (window.request stamp (targets.map (·.uri))) targets done) ∈
                w.trace)) ∧
        (∀ script db outcome stage,
          requestRecovery (startPipeline c script db) window stamp targets = (outcome, stage) →
            Reaches (RequestMoves (window.request stamp (targets.map (·.uri))) targets)
              (initial ⟨c.peers⟩ db) stage.world ∧
            (outcome = .queued → Succeeded c.peers db
              (window.request stamp (targets.map (·.uri))) targets stage.world)) ∧
        ∀ sender r, Arrives sender (window.request stamp (targets.map (·.uri))) r →
          ∀ p ∈ c.peers, r.isReceiver p.uri = true ↔ p ∈ asked := by
  have hdistinct := (validateWith_eq_ok.1 hvalid).peers.distinct
  refine ⟨fun fault ↦ Recovery.selectPeers_eq_error, Recovery.exists_selectPeers_eq_error,
    fun targets hselect ↦ ?_⟩
  have htargets := Recovery.selectPeers_ne_nil hsome hselect
  have hkept : targets ⊆ distinctByUri targets := fun i hi ↦
    (Recovery.mem_distinctByUri_of_selectPeers hdistinct hselect
      (Recovery.mem_of_selectPeers hselect hi)).2 (List.mem_map_of_mem hi)
  refine ⟨distinctByUri targets, Recovery.chosen_of_selectPeers hdistinct hselect,
    fun window stamp ↦ ⟨fun db w hr ↦ ⟨addressed_of_requestMoves hr htargets hkept,
      fun hsucceeded ↦ hsucceeded.exists_write htargets⟩,
      fun script db outcome stage hrun ↦ ⟨?_, ?_⟩, fun sender r harrives p hp ↦ ?_⟩⟩
  · have hr := reaches_requestRecovery c script db window stamp targets
    rwa [hrun] at hr
  · rintro rfl
    exact succeeded_of_requestRecovery hrun
  · rw [Recovery.Window.isReceiver_iff_mem (by simpa using htargets) harrives,
      Recovery.mem_distinctByUri_of_selectPeers hdistinct hselect hp]

/-- An instance with three peers. -/
def threePeers : Config where
  peers := [⟨"b", "http://b"⟩, ⟨"c", "http://c"⟩, ⟨"d", "http://d"⟩]

/-- Two of its peers, of which one is mentioned twice. -/
def mentioned : List String := ["http://c", "http://b", "http://c"]

/-- What is selected then. -/
def selection : List Instance := [⟨"c", "http://c"⟩, ⟨"b", "http://b"⟩, ⟨"c", "http://c"⟩]

/-- What comes of a request for these peers. -/
def requested : Requested × Stage :=
  requestRecovery (startPipeline threePeers unreached .fresh) askedWindow ⟨"r1", default⟩ selection

/-- The request is stored for each of the two peers once, in the order in which they are mentioned
first, and it is not for the third one. -/
theorem request_for_stored_peers_of_repeated :
    threePeers.validate = .ok () ∧ threePeers.peers ≠ [] ∧
    Recovery.selectPeers threePeers.peers mentioned = .ok selection ∧
    requested.1 = .queued ∧
    ∃ asked, asked.map (·.uri) = ["http://c", "http://b"] ∧
      (∃ u n g c, Moment (fun _ _ ↦ True) (initial ⟨threePeers.peers⟩ .fresh) u
        requested.2.world n g (.store .works) c ∧
        c.db.StoredFor (askedWindow.request ⟨"r1", default⟩ (selection.map (·.uri))) asked) ∧
      ∃ r, (Wire.Body.ofMessage (askedWindow.request ⟨"r1", default⟩ (selection.map (·.uri)))
          "http://a").receive = .ok r ∧
        r.isReceiver "http://c" = true ∧ r.isReceiver "http://d" = false := by
  have hvalid : threePeers.validate = .ok () := by decide +kernel
  have hselect : Recovery.selectPeers threePeers.peers mentioned = .ok selection := by
    decide +kernel
  have hqueued : requested.1 = .queued := by decide +kernel
  have hwrite : (0, .write 0 (askedWindow.request ⟨"r1", default⟩ (selection.map (·.uri))) selection
      true) ∈ requested.2.world.trace := by decide +kernel
  obtain ⟨asked, hchosen, hall⟩ :=
    (request_for_stored_peers threePeers mentioned hvalid (by decide)).2.2 selection hselect
  obtain ⟨hmoves, hrun, hreceivers⟩ := hall askedWindow ⟨"r1", default⟩
  obtain ⟨hr, -⟩ := hrun unreached .fresh _ _ (Prod.eta requested).symm
  obtain ⟨haddressed, -⟩ := hmoves .fresh _ hr
  obtain ⟨⟨u, g, c, hmoment, -, hstored⟩, -⟩ := (haddressed.written _ _ _ _ _ hwrite).2 rfl
  have huris : asked.map (·.uri) = ["http://c", "http://b"] :=
    (hchosen.mentioned (by decide)).trans (by decide)
  have hyear : DateText.FourDigitYear (askedWindow.request ⟨"r1", default⟩
      (selection.map (·.uri))).date := by decide
  obtain ⟨r, hreceive⟩ := Wire.Body.exists_receive_iff.2 hyear
  have hfor := hreceivers "http://a" r (.sent hreceive)
  refine ⟨hvalid, by decide, hselect, hqueued, asked, huris, ⟨u, 0, g, c, hmoment, hstored⟩, r,
    hreceive, ?_, ?_⟩
  · have hlisted : "http://c" ∈ asked.map (·.uri) := huris ▸ List.mem_cons_self
    obtain ⟨i, hi, huri⟩ := List.mem_map.1 hlisted
    exact huri ▸ (hfor i (hchosen.configured hi)).2 hi
  · rw [Bool.eq_false_iff, Ne, hfor ⟨"d", "http://d"⟩ (by decide)]
    intro hasked
    have hlisted : "http://d" ∈ asked.map (·.uri) := List.mem_map_of_mem hasked
    rw [huris] at hlisted
    exact absurd hlisted (by decide)

end Daemon

end PeerRelay
