import PeerRelay.Proofs.Daemon.Acts
import PeerRelay.Proofs.Delivery.Draining
import PeerRelay.Proofs.Delivery.Schedule

/-!
# Recovery requests that succeed

A recovery request is handed to a pipeline of its own, which is then stopped, and succeeds if the
storing worker ended by itself. The command does nothing else to the pipeline, so that the request
is all that was ever submitted and the peers stay the same (`RequestMoves`); whatever the store and
the peers do, a success is one of the worlds that such moves lead to (`succeeded_of_recover`).

In each of them the storing worker asked the store to write the request for the peers. What becomes
of the request depends on the answer alone: if it was stored, then it is there for each peer that
did not take it; if not, then nothing of it is stored, and it is lost for each peer that did not
take it before the pipeline stopped (`request_safe_iff`).
-/

namespace PeerRelay.Daemon

open Settings Delivery World

/-! ### A pipeline with one submission -/

/-- The pipeline goes its way: nothing is submitted, and the peers stay the same. -/
def GoesOn : World → Move → Prop
  | _, .start .. | _, .act .. | _, .tick _ => True
  | _, .submit .. | _, .register _ | _, .unregister _ => False

instance (w : World) : (m : Move) → Decidable (GoesOn w m)
  | .start .. | .act .. | .tick _ => isTrue trivial
  | .submit .. | .register _ | .unregister _ => isFalse id

/-- Nothing was submitted. -/
def Untouched (w : World) : Prop :=
  ∀ n s, (n, .called s) ∉ w.trace

/-- The pipeline goes its way, and a request is handed to it once, as the only submission. -/
def RequestMoves (request : Message) (targets : List Instance) (w : World) (m : Move) : Prop :=
  GoesOn w m ∨ Untouched w ∧ ∃ n, m = .submit n request targets

/-- What was submitted is the request, once. -/
structure Sole (request : Message) (targets : List Instance) (w : World) : Prop where
  eq : ∀ n s, (n, .called s) ∈ w.trace → s.message = request ∧ s.targets = targets
  once : ∀ n s n' s', (n, .called s) ∈ w.trace → (n', .called s') ∈ w.trace → n = n' ∧ s = s'

section Reached

variable {request : Message} {targets : List Instance} {d : Directory} {db : Store.Database}
  {w w' : World} {m : Move} {n : Nat} {s : Submission}

theorem allowsActs_goesOn : AllowsActs GoesOn :=
  ⟨fun _ _ _ ↦ trivial, fun _ _ ↦ trivial⟩

/-- A started pipeline is one that goes its way, with the configured peers. -/
theorem reaches_startPipeline (config : Config) (script : Script) (db : Store.Database) :
    Reaches GoesOn (initial ⟨config.peers⟩ db) (startPipeline config script db).world :=
  Stage.reaches_start (s := { Stage.initial ⟨config.peers⟩ db with script }) allowsActs_goesOn
    fun _ _ ↦ trivial

theorem allowsActs_requestMoves (request : Message) (targets : List Instance) :
    AllowsActs (RequestMoves request targets) :=
  ⟨fun _ _ _ ↦ Or.inl trivial, fun _ _ ↦ Or.inl trivial⟩

theorem keepsPeers_requestMoves : KeepsPeers (RequestMoves request targets) := by
  refine fun w ↦ ⟨fun i hmay ↦ ?_, fun uri hmay ↦ ?_⟩
  · rcases hmay with hgoes | ⟨-, n, hsubmit⟩
    · exact hgoes
    · cases hsubmit
  · rcases hmay with hgoes | ⟨-, n, hsubmit⟩
    · exact hgoes
    · cases hsubmit

/-- A pipeline that goes its way makes no call. -/
theorem called_of_goesOn (hmay : GoesOn w m) (hmove : w.Moves m w')
    (hs : (n, .called s) ∈ w'.trace) : (n, .called s) ∈ w.trace := by
  cases hmove with
  | start settings call records db loaded =>
    rcases List.mem_append.1 hs with hnow | hbefore
    · simp [reloadSeen] at hnow
    · exact hbefore
  | act k g a c at_k acts =>
    rcases List.mem_append.1 hs with hnow | hbefore
    · simp only [List.mem_reverse, List.mem_map, Prod.mk.injEq] at hnow
      obtain ⟨o, ho, -, rfl⟩ := hnow
      exact absurd (List.filterMap_eq_nil_iff.1 (called?_of_acts acts) _ ho)
        (by simp [Observation.called?])
    · exact hbefore
  | tick millis => exact hs
  | refuse | call | register | unregister => exact hmay.elim

theorem untouched_of_goesOn (hr : Reaches GoesOn (initial d db) w) : Untouched w :=
  Reaches.induct (P := Untouched) hr (fun _ _ hs ↦ nomatch hs) fun _ hmay hmove ih n s hs ↦
    ih n s (called_of_goesOn hmay hmove hs)

theorem sole_of_requestMoves (hr : Reaches (RequestMoves request targets) (initial d db) w) :
    Sole request targets w := by
  refine Reaches.induct (P := Sole request targets) hr
    ⟨by simp [initial], by simp [initial]⟩ fun {v v' m} _ hmay hmove ih ↦ ?_
  rcases hmay with hgoes | ⟨huntouched, n, rfl⟩
  · exact ⟨fun n s hs ↦ ih.eq n s (called_of_goesOn hgoes hmove hs), fun n s n' s' hs hs' ↦
      ih.once n s n' s' (called_of_goesOn hgoes hmove hs) (called_of_goesOn hgoes hmove hs')⟩
  · -- the call is the first one
    have hfirst : ∀ n' s, (n', .called s) ∈ v'.trace →
        n' = n ∧ s = ⟨v.nextTicket, request, targets⟩ := by
      intro n' s hs
      cases hmove with
      | refuse => simpa [huntouched n' s] using hs
      | call => simpa [huntouched n' s] using hs
    refine ⟨fun n' s hs ↦ ?_, fun n₁ s₁ n₂ s₂ hs₁ hs₂ ↦ ?_⟩
    · obtain ⟨-, rfl⟩ := hfirst n' s hs
      exact ⟨rfl, rfl⟩
    · obtain ⟨rfl, rfl⟩ := hfirst n₁ s₁ hs₁
      obtain ⟨rfl, rfl⟩ := hfirst n₂ s₂ hs₂
      exact ⟨rfl, rfl⟩

/-- What was accepted is the request. -/
theorem Sole.of_accepted (hsole : Sole request targets w)
    (hr : Reaches (RequestMoves request targets) (initial d db) w)
    (hs : (n, .accepted s) ∈ w.trace) :
    s.message = request ∧ s.targets = targets ∧ OnlyUnderId s w.trace := by
  have hcalled := called_of_mem_accepted hr hs
  obtain ⟨hmessage, htargets⟩ := hsole.eq n s hcalled
  exact ⟨hmessage, htargets, fun n' s' hs' _ ↦
    (hsole.once n' s' n s (called_of_mem_accepted hr hs') hcalled).2⟩

end Reached

/-! ### Requests that succeed -/

/-- A request was accepted, and the storing worker that accepted it ended by itself. -/
structure Succeeded (peers : List Instance) (db : Store.Database) (request : Message)
    (targets : List Instance) (w : World) : Prop where
  reached : Reaches (RequestMoves request targets) (initial ⟨peers⟩ db) w
  drained : ∃ n s, (n, .accepted s) ∈ w.trace ∧ (n, .stopped .drained) ∈ w.trace

section Succeeded

variable {config : Config} {script : Script} {db : Store.Database} {window : Recovery.Window}
  {stamp : Message.Stamp} {targets : List Instance} {stage : Stage}

/-- A request that is handed to a pipeline which goes its way is a call of the current generation,
and the only one. -/
theorem exists_called_of_submit {s₀ s₁ : Stage} {d : Directory} {request : Message}
    {patience : Option Nat} {outcome : Stage.Submitted}
    (hr : Reaches GoesOn (initial d db) s₀.world)
    (h : s₀.submit request targets patience = some (outcome, s₁)) :
    Reaches (RequestMoves request targets) (initial d db) s₁.world ∧
      ∃ n k, s₁.current = some n ∧ (n, .called ⟨k, request, targets⟩) ∈ s₁.world.trace ∧
        (outcome = .accepted → ∃ n' x, (n', .accepted x) ∈ s₁.world.trace) := by
  obtain ⟨n, w, hcurrent, hcall, hqueued, hknown⟩ :=
    Stage.leads_of_submit (allowsActs_requestMoves request targets) h
  have hmoved : Reaches (RequestMoves request targets) (initial d db) w :=
    .step (.submit n request targets) (hr.mono fun _ _ ↦ Or.inl)
      (Or.inr ⟨untouched_of_goesOn hr, n, rfl⟩) hcall
  refine ⟨hmoved.trans hqueued.reaches, n, _, hqueued.current.trans hcurrent,
    hqueued.reaches.trace_suffix.subset (called_of_submit hcall), ?_⟩
  rintro rfl
  obtain ⟨n', x, hx, -⟩ := hknown.resolve_right fun hgone ↦ nomatch hgone.1
  exact ⟨n', x, hx⟩

/-- The pipeline of the command does what some pipeline with one submission does. -/
theorem succeeded_of_requestRecovery
    (h : requestRecovery (startPipeline config script db) window stamp targets = (.queued, stage)) :
    Succeeded config.peers db (window.request stamp (targets.map (·.uri))) targets stage.world := by
  have hstarted := reaches_startPipeline config script db
  rw [requestRecovery] at h
  generalize window.request stamp (targets.map (·.uri)) = request at *
  generalize startPipeline config script db = s₀ at hstarted h
  split at h
  · rename_i s₁ hsubmit
    split at h
    · rename_i s₂ hshutdown
      obtain rfl : s₂ = stage := (Prod.mk.inj h).2
      obtain ⟨hsubmitted, n, k, hcurrent, hcalled, haccepted⟩ :=
        exists_called_of_submit hstarted hsubmit
      obtain ⟨hstopped, hdrained⟩ :=
        Stage.leads_of_shutdown (allowsActs_requestMoves request targets) hshutdown
      have hr := hsubmitted.trans hstopped.reaches
      have hlater := hstopped.reaches.trace_suffix.subset
      obtain ⟨n', x, hx⟩ := haccepted rfl
      -- what was accepted is the one call, made to the generation that was stopped
      obtain ⟨rfl, -⟩ := (sole_of_requestMoves hr).once _ _ _ _
        (called_of_mem_accepted hr (hlater hx)) (hlater hcalled)
      obtain ⟨k', hcurrent', hended⟩ := hdrained rfl
      obtain rfl : n' = k' := Option.some.inj (hcurrent.symm.trans hcurrent')
      exact ⟨hr, n', x, hlater hx, hended⟩
    · cases h
    · cases h
  · cases h
  · cases h
  · cases h

/-- A command that succeeds after it kept the store was told that the request is queued. -/
theorem succeeds_of_report {paths : Paths} {requested : Requested} {line : String} {t t' : Scene}
    (h : (do
      keep paths stage
      match requested with
      | .queued => Act.say line
      | .refused fault => throw (.queue fault)
      | .uncertain stopped => throw (.uncertain stopped) : Act Unit).Succeeds t () t') :
    requested = .queued ∧ t'.files.get? paths.database = some (.database stage.world.db) := by
  rw [Act.bind_succeeds] at h
  obtain ⟨_, t₁, hkeep, h⟩ := h
  cases requested with
  | queued =>
    obtain rfl := Act.say_succeeds.1 h
    exact ⟨rfl, (succeeds_of_keep hkeep :)⟩
  | refused fault => exact absurd h Act.not_throw_succeeds
  | uncertain stopped => exact absurd h Act.not_throw_succeeds

/-- A recovery that succeeds leaves the store of such a pipeline. -/
theorem succeeded_of_recover {s : Surroundings} {paths : Paths} {lower upper : String}
    {peers : List String} {t t' : Scene}
    (h : (recover s config paths lower upper peers).Succeeds t () t') :
    ∃ window targets files db w, Recovery.Window.ofTexts lower upper = .ok window ∧
      Recovery.selectPeers config.peers peers = .ok targets ∧ targets ≠ [] ∧
      t.files.createAll? paths.base = some files ∧
      (Store.openAt files paths.database).1 = .ok db ∧
      Succeeded config.peers db (window.request s.stamp (targets.map (·.uri))) targets w ∧
      t'.files.get? paths.database = some (.database w.db) := by
  rw [recover, Act.bind_succeeds] at h
  obtain ⟨window, t₁, hread, h⟩ := h
  obtain ⟨hwindow, rfl⟩ := Act.demand_succeeds.1 hread
  rw [Act.bind_succeeds] at h
  obtain ⟨_, t₁, hvalid, h⟩ := h
  obtain ⟨-, rfl⟩ := Act.demand_succeeds.1 hvalid
  rw [Act.bind_succeeds] at h
  obtain ⟨targets, t₁, hselected, h⟩ := h
  obtain ⟨hselect, rfl⟩ := Act.demand_succeeds.1 hselected
  dsimp only at h
  split at h
  · rw [Act.bind_succeeds] at h
    obtain ⟨_, _, hthrow, -⟩ := h
    exact absurd hthrow Act.not_throw_succeeds
  · rename_i hsome
    rw [Act.bind_succeeds] at h
    obtain ⟨stage, t₁, hopen, h⟩ := h
    obtain ⟨files, db, hfiles, hdb, rfl⟩ := succeeds_of_openPipeline hopen
    have hreported :
        (requestRecovery (startPipeline config s.script db) window s.stamp targets).1 = .queued ∧
          t'.files.get? paths.database = some (.database
            (requestRecovery (startPipeline config s.script db) window s.stamp
              targets).2.world.db) := by
      split at h
      · rw [Act.bind_succeeds] at h
        obtain ⟨_, t₂, -, h⟩ := h
        exact succeeds_of_report h
      · exact succeeds_of_report h
    exact ⟨window, targets, files, db, _, hwindow, hselect, by simpa using hsome, hfiles, hdb,
      succeeded_of_requestRecovery (Prod.ext hreported.1 rfl), hreported.2⟩

end Succeeded

/-! ### Whether a request is safe -/

/-- Each peer has a request stored for it, or took it. -/
def Safe (request : Message) (targets : List Instance) (w : World) : Prop :=
  ∀ i ∈ targets, w.db.Holds request i.uri ∨ Taken w.trace request.id i.uri

/-- **A recovery that succeeds is safe if the request was stored or every peer took it at once, and
not otherwise.** The store was asked to write the request for the peers, and a success does not say
whether it did. If it did, then each peer has the request stored for it or took it. If it did
not, then nothing of the request is stored. -/
theorem request_safe_iff (config : Config) :
    (∀ db request targets w, targets ≠ [] → Succeeded config.peers db request targets w →
      ∃ n k done, (n, .write k request targets done) ∈ w.trace ∧
        (done = true → Safe request targets w) ∧
        ((∀ row, db.Stores row → row.id ≠ .text request.id) →
          (done = false → ∀ row, w.db.Stores row → row.id ≠ .text request.id) ∧
          (Safe request targets w ↔
            done = true ∨ ∀ i ∈ targets, Taken w.trace request.id i.uri))) ∧
    ∀ s paths lower upper peers t t',
      (recover s config paths lower upper peers).Succeeds t () t' →
      ∃ window targets files db w, Recovery.Window.ofTexts lower upper = .ok window ∧
        Recovery.selectPeers config.peers peers = .ok targets ∧ targets ≠ [] ∧
        t.files.createAll? paths.base = some files ∧
        (Store.openAt files paths.database).1 = .ok db ∧
        Succeeded config.peers db (window.request s.stamp (targets.map (·.uri))) targets w ∧
        t'.files.get? paths.database = some (.database w.db) := by
  refine ⟨fun db request targets w htargets hsucceeded ↦ ?_,
    fun s paths lower upper peers t t' ↦ succeeded_of_recover⟩
  have hr := hsucceeded.reached
  obtain ⟨n, s, hs, hdrained⟩ := hsucceeded.drained
  obtain ⟨rfl, rfl, honly⟩ := (sole_of_requestMoves hr).of_accepted hr hs
  obtain ⟨done, hwrite⟩ := write_of_drained hr hs htargets hdrained
  have hsafe : done = true → Safe s.message s.targets w := by
    rintro rfl i hi
    exact stored_or_taken_of_write keepsPeers_requestMoves hr hs honly hwrite hi
  refine ⟨n, s.ticket, done, hwrite, hsafe, fun hfresh ↦ ?_⟩
  have hunwritten : done = false → ∀ row, w.db.Stores row → row.id ≠ .text s.message.id := by
    rintro rfl
    exact not_stored_of_unwritten hr hs honly htargets hfresh hwrite
  refine ⟨hunwritten, fun hall ↦ ?_, ?_⟩
  · cases done with
    | true => exact Or.inl rfl
    | false =>
      exact Or.inr fun i hi ↦ (hall i hi).resolve_left fun hholds ↦ hunwritten rfl _ hholds.1 rfl
  · rintro (hdone | htaken)
    · exact hsafe hdone
    · exact fun i hi ↦ Or.inr (htaken i hi)

/-! ### An example -/

/-- An instance with one peer. -/
def onePeer : Config where
  peers := [⟨"b", "http://b"⟩]

/-- The peer cannot be reached. -/
def unreached : Script where
  offline := true

/-- The peer cannot be reached, and the store takes nothing. -/
def unstored : Script where
  offline := true
  writesFail := true

/-- A command that asks the peer for what it sent within a day. -/
def asking (script : Script) : Act Unit :=
  recover ⟨"/", none, none, none, "1", script, ⟨"r1", default⟩⟩ onePeer ⟨"d"⟩
    "2024-05-01T00:00:00Z" "2024-05-02T00:00:00Z" []

/-- A scene in which nothing was done. -/
def nothingDone : Scene := ⟨.empty, "", [], false⟩

/-- The day that is asked for. -/
def askedWindow : Recovery.Window :=
  match Recovery.Window.ofTexts "2024-05-01T00:00:00Z" "2024-05-02T00:00:00Z" with
  | .ok window => window
  | .error _ => ⟨default, default⟩

/-- The request that the command makes. -/
def askedRequest : Message :=
  askedWindow.request ⟨"r1", default⟩ ["http://b"]

/-- What comes of it. -/
def asked (script : Script) : Requested × Stage :=
  requestRecovery (startPipeline onePeer script (Store.Migration.run .blank).2) askedWindow
    ⟨"r1", default⟩ onePeer.peers

theorem names_base : Files.names "d" = ["d"] := by
  -- a path is split letter by letter, as the recursion of `splitOn` is not structural
  rw [Files.names, String.splitOn, if_neg (by decide),
    String.splitOnAux, if_neg (by decide), if_neg (by decide),
    String.splitOnAux, if_pos (by decide)]
  decide +kernel

theorem names_database : Files.names (Paths.database ⟨"d"⟩) = ["d", "replication.sqlite"] := by
  have hpath : Paths.database ⟨"d"⟩ = "d/replication.sqlite" := by decide +kernel
  rw [hpath, Files.names, String.splitOn, if_neg (by decide),
    String.splitOnAux, if_neg (by decide), if_neg (by decide),
    String.splitOnAux, if_neg (by decide), if_pos (by decide)]
  dsimp only
  rw [if_pos (by decide)]
  iterate 18 rw [String.splitOnAux, if_neg (by decide), if_neg (by decide)]
  rw [String.splitOnAux, if_pos (by decide)]
  decide +kernel

/-- The command succeeds whether the store works or not. -/
theorem asking_succeeds {script : Script} (hscript : script = unreached ∨ script = unstored) :
    ∃ t', (asking script).Succeeds nothingDone () t' ∧
      t'.files.get? (Paths.database ⟨"d"⟩) = some (.database (asked script).2.world.db) := by
  have hrun : ((asking script).run.run nothingDone).1.toOption = some () ∧
      ((asking script).run.run nothingDone).2.files.get? (Paths.database ⟨"d"⟩) =
        some (.database (asked script).2.world.db) := by
    simp only [asking, recover, openPipeline, openStore, keep, Store.openAt, Store.createAbove,
      Store.databaseAt, Files.createAll?, Files.get?, Files.put?, names_base, names_database]
    rcases hscript with rfl | rfl
    · decide +kernel
    · decide +kernel
  exact ⟨_, Act.succeeds_iff.2 ⟨hrun.1, rfl⟩, hrun.2⟩

/-- With a store that works the request waits there for the peer that was not reached. -/
theorem request_safe_iff_of_unreached :
    Safe askedRequest onePeer.peers (asked unreached).2.world ∧
      ∃ (t' : Scene) (targets : List Instance) (w : World),
        (asking unreached).Succeeds nothingDone () t' ∧
        Recovery.selectPeers onePeer.peers [] = .ok targets ∧
        t'.files.get? (Paths.database ⟨"d"⟩) = some (.database w.db) := by
  have hqueued : (asked unreached).1 = .queued := by decide +kernel
  have hstored : (asked unreached).2.world.db.messages = some [.ofMessage askedRequest] := by
    decide +kernel
  have hblank : (Store.Migration.run .blank).2.messages = some [] := by decide +kernel
  obtain ⟨n, k, done, -, hsafe, hfresh⟩ := (request_safe_iff onePeer).1 _ askedRequest _ _
    (by decide) (succeeded_of_requestRecovery (Prod.ext hqueued rfl))
  obtain ⟨hunwritten, -⟩ := hfresh fun row ⟨rows, hrows, hrow⟩ ↦ by
    cases hblank.symm.trans hrows
    cases hrow
  obtain ⟨t', hsucceeds, -⟩ := asking_succeeds (Or.inl rfl)
  obtain ⟨-, targets, -, -, w, -, hselect, -, -, -, -, hkept⟩ :=
    (request_safe_iff onePeer).2 _ _ _ _ _ _ _ hsucceeds
  refine ⟨?_, t', targets, w, hsucceeds, hselect, hkept⟩
  cases done with
  | true => exact hsafe rfl
  | false => exact absurd rfl (hunwritten rfl _ ⟨_, hstored, List.mem_singleton_self _⟩)

/-- With a store that takes nothing the command succeeds as well, and nothing of the request is
left: it is not stored, and the peer did not take it. -/
theorem succeeds_unsafe :
    (∃ t', (asking unstored).Succeeds nothingDone () t' ∧
      t'.files.get? (Paths.database ⟨"d"⟩) = some (.database (asked unstored).2.world.db)) ∧
    (asked unstored).1 = .queued ∧
    ¬ Safe askedRequest onePeer.peers (asked unstored).2.world := by
  refine ⟨asking_succeeds (Or.inr rfl), by decide +kernel, fun hsafe ↦ ?_⟩
  have hempty : (asked unstored).2.world.db.messages = some [] := by decide +kernel
  have hfailed : ∀ entry ∈ (asked unstored).2.world.trace, entry.2.finished? = none := by
    decide +kernel
  rcases hsafe ⟨"b", "http://b"⟩ (by decide) with
    ⟨⟨rows, hrows, hrow⟩, -⟩ | ⟨n, k, m, i, htaken, -⟩
  · cases hempty.symm.trans hrows
    cases hrow
  · exact Option.some_ne_none _ (hfailed _ htaken)

end PeerRelay.Daemon
