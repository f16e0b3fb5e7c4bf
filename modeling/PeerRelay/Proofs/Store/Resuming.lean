import PeerRelay.Proofs.Outcome
import PeerRelay.Store.Opening

/-!
# A setup that was stopped

Each statement of a setup is permanent at once, so a process that stops leaves what the statements
before the stop have made (`stoppedAfter`). Of these databases there are three kinds. Where nothing
of the first version was made, a run starts from the beginning (`Unbuilt`). Where the version was
recorded, a run finds nothing to do (`Recorded`). In between the table of messages is there and the
version is not recorded, so that every run creates the table again, fails, and changes nothing
(`Stuck`). The versions table is the only one that may be there already when it is created, which
is why a stop right after it does no harm.

Which of the three kinds a database is, is decided by the first stop that comes after the versions
table was made (`resumable_iff`).
-/

namespace PeerRelay.Store.Migration

/-! ### The statements of a run -/

/-- The database with a versions table, which the first statement of a run leaves. -/
def withVersions (db : Database) : Database :=
  { db with versions := some (db.versions.getD []) }

/-- The statements that a run executes on a database. -/
def planned (db : Database) : List SetupStatement :=
  match recordedVersion (withVersions db) with
  | .ok version => .ensureVersions :: if currentVersion ≤ version then [] else firstVersion
  | .error _ => [.ensureVersions]

/-- What a run leaves if the process stops after its first `n` statements. -/
def stoppedAfter (db : Database) (n : Nat) : Database :=
  (runSetup db ((planned db).take n)).2

variable {db : Database} {version : Int}

theorem runSetup_ensureVersions (db : Database) (rest : List SetupStatement) :
    runSetup db (.ensureVersions :: rest) = runSetup (withVersions db) rest :=
  rfl

/-- A run whose versions can be read executes what is planned. -/
theorem run_eq_runSetup (h : recordedVersion (withVersions db) = .ok version) :
    run db = runSetup db (planned db) := by
  have hversions : runSetup db [.ensureVersions] = (.ok (), withVersions db) := rfl
  rw [run, hversions, planned]
  dsimp only
  rw [h]
  dsimp only
  rw [runSetup_ensureVersions]
  split <;> rfl

/-- Whatever is planned begins with the versions table. -/
theorem stoppedAfter_succ (db : Database) (n : Nat) : stoppedAfter db (n + 1) =
    (runSetup (withVersions db) ((planned db).tail.take n)).2 := by
  rw [stoppedAfter, planned]
  split <;> rfl

/-! ### What is recorded -/

/-- Only the versions table is read. -/
theorem recordedVersion_congr {db db' : Database} (h : db.versions = db'.versions) :
    recordedVersion db = recordedVersion db' := by
  rw [recordedVersion, h, recordedVersion]

theorem withVersions_eq_self (h : recordedVersion db = .ok version) : withVersions db = db := by
  cases hversions : db.versions with
  | none =>
    rw [recordedVersion, hversions] at h
    contradiction
  | some versions =>
    rw [withVersions, hversions, Option.getD_some, ← hversions]

/-- No recorded version is higher than the one that is read. -/
theorem le_of_recordedVersion {versions : List (Int × String)}
    (hversions : db.versions = some versions) (h : recordedVersion db = .ok version) :
    ∀ row ∈ versions, row.1 ≤ version := by
  intro row hrow
  rw [recordedVersion, hversions] at h
  simp only [rows, ok_bind] at h
  split at h
  · obtain rfl := pure_eq_ok.1 h
    obtain ⟨highest, hmax⟩ := Option.isSome_iff_exists.1
      (List.isSome_max?_of_mem (List.mem_map_of_mem (f := Prod.fst) hrow))
    rw [hmax, Option.getD_some]
    exact (List.max?_eq_some_iff.1 hmax).2 _ (List.mem_map_of_mem hrow)
  · contradiction

/-- A version that is higher than the recorded ones is the one that is read once it is recorded. -/
theorem recordedVersion_concat {versions : List (Int × String)} {name : String}
    (hversions : db.versions = some versions) (h : recordedVersion db = .ok version)
    (hlt : version < currentVersion) (db' : Database)
    (hdb' : db'.versions = some (versions ++ [(currentVersion, name)])) :
    recordedVersion db' = .ok currentVersion := by
  have hmax : ((versions ++ [(currentVersion, name)]).map (·.1)).max? = some currentVersion := by
    refine List.max?_eq_some_iff.2 ⟨by simp, fun number hnumber ↦ ?_⟩
    obtain ⟨row, hrow, rfl⟩ := List.mem_map.1 hnumber
    rcases List.mem_append.1 hrow with hold | hnew
    · exact Int.le_trans (le_of_recordedVersion hversions h row hold) (Int.le_of_lt hlt)
    · exact Int.le_of_eq (congrArg Prod.fst (List.mem_singleton.1 hnew))
  rw [recordedVersion, hdb']
  simp only [rows, ok_bind, hmax, Option.getD_some]
  rfl

/-! ### The three kinds of databases -/

/-- Nothing of the first version was made. -/
structure Unbuilt (db : Database) : Prop where
  messages : db.messages = none
  targets : db.targets = none
  uriIndex : db.uriIndex = false
  version : ∃ version < currentVersion, recordedVersion (withVersions db) = .ok version

/-- The table of messages was made and the version was not recorded. -/
structure Stuck (db : Database) : Prop where
  messages : db.messages.isSome
  version : ∃ version < currentVersion, recordedVersion db = .ok version

/-- The current version was recorded. -/
def Recorded (db : Database) : Prop :=
  ∃ version, currentVersion ≤ version ∧ recordedVersion db = .ok version

/-- What a run makes of a database with nothing of the first version in it. -/
def built (db : Database) : Database where
  versions := some (db.versions.getD [] ++ [(currentVersion, "messages")])
  messages := some []
  targets := some []
  uriIndex := true

/-- The schema of the first version, recorded once. -/
structure Complete (db : Database) : Prop where
  tables : tables db = ["migrations", "replication_message_targets", "replication_messages"]
  indexes : indexes db = ["idx_replication_message_targets_uri"]
  recorded : (db.versions.getD []).countP (·.1 = currentVersion) = 1

theorem unbuilt_blank : Unbuilt .blank :=
  ⟨rfl, rfl, rfl, 0, by decide, rfl⟩

namespace Unbuilt

theorem planned_eq (h : Unbuilt db) : planned db = .ensureVersions :: firstVersion := by
  obtain ⟨version, hlt, hversion⟩ := h.version
  rw [planned, hversion]
  exact congrArg _ (if_neg (Int.not_le.2 hlt))

theorem withVersions (h : Unbuilt db) : Unbuilt (withVersions db) :=
  ⟨h.messages, h.targets, h.uriIndex, h.version⟩

/-- No row is there for the current version. -/
theorem countP_versions (h : Unbuilt db) :
    (db.versions.getD []).countP (·.1 = currentVersion) = 0 := by
  obtain ⟨version, hlt, hversion⟩ := h.version
  rw [List.countP_eq_zero]
  intro row hrow heq
  have hle : row.1 ≤ version := le_of_recordedVersion rfl hversion row hrow
  rw [of_decide_eq_true heq] at hle
  exact Int.not_le.2 hlt hle

/-- The row of the version can be added. -/
theorem exec_recordVersion (h : Unbuilt db) :
    (SetupStatement.recordVersion currentVersion "messages").exec
      { Migration.withVersions db with messages := some [], targets := some [], uriIndex := true } =
    .ok (built db) := by
  have hnew : ¬ (db.versions.getD []).any (·.1 = currentVersion) := by
    rw [Bool.not_eq_true, List.any_eq_false]
    exact List.countP_eq_zero.1 h.countP_versions
  exact if_neg hnew

/-- The statements between the versions table and the version leave a database that is stuck. -/
theorem stuck_of_messages (h : Unbuilt db) {db' : Database} (hmessages : db'.messages.isSome)
    (hversions : db'.versions = (Migration.withVersions db).versions) : Stuck db' := by
  obtain ⟨version, hlt, hversion⟩ := h.version
  exact ⟨hmessages, version, hlt, (recordedVersion_congr hversions).trans hversion⟩

/-- What a stop leaves that comes before the version is recorded. -/
theorem stuck_of_stoppedAfter (h : Unbuilt db) {n : Nat} (hn : 1 < n)
    (hn' : n ≤ firstVersion.length) : Stuck (stoppedAfter db n) := by
  have hcases : n = 2 ∨ n = 3 ∨ n = 4 := by
    have hlength : firstVersion.length = 4 := rfl
    omega
  rcases hcases with rfl | rfl | rfl <;> rw [stoppedAfter_succ, h.planned_eq]
  all_goals
    obtain ⟨versions, messages, targets, uriIndex⟩ := db
    obtain ⟨rfl, rfl, rfl, -⟩ := id h
    exact h.stuck_of_messages rfl rfl

/-- What the statements of the first version leave. -/
theorem runSetup_firstVersion (h : Unbuilt db) :
    runSetup (Migration.withVersions db) firstVersion = (.ok (), built db) := by
  have hrecord := h.exec_recordVersion
  obtain ⟨versions, messages, targets, uriIndex⟩ := db
  obtain ⟨rfl, rfl, rfl, -⟩ := h
  change runSetup { Migration.withVersions ⟨versions, none, none, false⟩ with
    messages := some [], targets := some [], uriIndex := true }
      [.recordVersion currentVersion "messages"] = _
  rw [runSetup, hrecord]
  rfl

/-- What a stop leaves that comes after the version was recorded. -/
theorem stoppedAfter_eq_built (h : Unbuilt db) {n : Nat} (hn : firstVersion.length < n) :
    stoppedAfter db n = built db := by
  obtain ⟨n, rfl⟩ := Nat.exists_eq_add_of_lt hn
  rw [stoppedAfter_succ, h.planned_eq, List.tail_cons, List.take_of_length_le (by omega),
    h.runSetup_firstVersion]

theorem run_eq (h : Unbuilt db) : run db = (.ok (), built db) := by
  obtain ⟨version, -, hversion⟩ := h.version
  rw [run_eq_runSetup hversion, h.planned_eq, runSetup_ensureVersions, h.runSetup_firstVersion]

theorem recorded_built (h : Unbuilt db) : Recorded (built db) := by
  obtain ⟨version, hlt, hversion⟩ := h.version
  exact ⟨currentVersion, Int.le_refl _, recordedVersion_concat rfl hversion hlt _ rfl⟩

theorem complete_built (h : Unbuilt db) : Complete (built db) := by
  refine ⟨rfl, rfl, ?_⟩
  change List.countP _ (_ ++ _) = 1
  rw [List.countP_append, h.countP_versions]
  rfl

end Unbuilt

namespace Stuck

theorem planned_eq (h : Stuck db) : planned db = .ensureVersions :: firstVersion := by
  obtain ⟨version, hlt, hversion⟩ := h.version
  rw [planned, withVersions_eq_self hversion, hversion]
  exact congrArg _ (if_neg (Int.not_le.2 hlt))

/-- The table of messages is created again, which fails. -/
theorem runSetup_take (h : Stuck db) (n : Nat) :
    runSetup db (firstVersion.take (n + 1)) = (.error .engine, db) := by
  have hexec : SetupStatement.createMessages.exec db = .error .engine := if_pos h.messages
  rw [firstVersion, List.take_succ_cons, runSetup, hexec]

theorem stoppedAfter_eq (h : Stuck db) : ∀ n, stoppedAfter db n = db
  | 0 => rfl
  | n + 1 => by
    obtain ⟨version, -, hversion⟩ := h.version
    rw [stoppedAfter_succ, withVersions_eq_self hversion, h.planned_eq, List.tail_cons]
    cases n with
    | zero => rfl
    | succ n => rw [h.runSetup_take]

theorem run_eq (h : Stuck db) : run db = (.error .engine, db) := by
  obtain ⟨version, -, hversion⟩ := h.version
  have hself := withVersions_eq_self hversion
  rw [run_eq_runSetup (hself.symm ▸ hversion), h.planned_eq, runSetup_ensureVersions, hself]
  exact h.runSetup_take 3

end Stuck

namespace Recorded

theorem planned_eq (h : Recorded db) : planned db = [.ensureVersions] := by
  obtain ⟨version, hle, hversion⟩ := h
  rw [planned, withVersions_eq_self hversion, hversion]
  exact congrArg _ (if_pos hle)

theorem stoppedAfter_eq (h : Recorded db) : ∀ n, stoppedAfter db n = db
  | 0 => rfl
  | n + 1 => by
    obtain ⟨version, -, hversion⟩ := id h
    rw [stoppedAfter_succ, withVersions_eq_self hversion, h.planned_eq, List.tail_cons,
      List.take_nil]
    rfl

theorem run_eq (h : Recorded db) : run db = (.ok (), db) := by
  obtain ⟨version, -, hversion⟩ := id h
  have hself := withVersions_eq_self hversion
  rw [run_eq_runSetup (hself.symm ▸ hversion), h.planned_eq, runSetup_ensureVersions, hself]
  rfl

end Recorded

/-! ### Stop after stop -/

/-- What is left by one run after the other, each of which stops after some of its statements. -/
def stoppedAfterAll (db : Database) (stops : List Nat) : Database :=
  stops.foldl stoppedAfter db

/-- Of the stops that come after the versions table was made, the first comes after the version was
recorded. -/
def Harmless (stops : List Nat) : Prop :=
  ∀ n ∈ stops.find? (1 < ·), firstVersion.length < n

theorem harmless_cons_of_le {n : Nat} (hn : n ≤ 1) (stops : List Nat) :
    Harmless (n :: stops) ↔ Harmless stops := by
  rw [Harmless, List.find?_cons_of_neg (by simpa using hn), Harmless]

theorem harmless_cons_of_lt {n : Nat} (hn : 1 < n) (stops : List Nat) :
    Harmless (n :: stops) ↔ firstVersion.length < n := by
  rw [Harmless, List.find?_cons_of_pos (by simpa using hn)]
  simp

theorem Stuck.stoppedAfterAll_eq (h : Stuck db) (stops : List Nat) :
    stoppedAfterAll db stops = db :=
  List.foldl_fixed' h.stoppedAfter_eq stops

theorem Recorded.stoppedAfterAll_eq (h : Recorded db) (stops : List Nat) :
    stoppedAfterAll db stops = db :=
  List.foldl_fixed' h.stoppedAfter_eq stops

namespace Unbuilt

/-- A stop before the first version is begun leaves nothing of it. -/
theorem of_stoppedAfter (h : Unbuilt db) {n : Nat} (hn : n ≤ 1) :
    Unbuilt (stoppedAfter db n) ∧ built (stoppedAfter db n) = built db := by
  match n, hn with
  | 0, _ => exact ⟨h, rfl⟩
  | 1, _ =>
    rw [stoppedAfter_succ]
    exact ⟨h.withVersions, rfl⟩

/-- After harmless stops the next run leaves what a single run does. -/
theorem run_of_harmless (h : Unbuilt db) {stops : List Nat} (hstops : Harmless stops) :
    run (stoppedAfterAll db stops) = (.ok (), built db) := by
  induction stops generalizing db with
  | nil => exact h.run_eq
  | cons n rest ih =>
    rw [stoppedAfterAll, List.foldl_cons]
    rcases Nat.lt_or_ge 1 n with hn | hn
    · rw [h.stoppedAfter_eq_built ((harmless_cons_of_lt hn rest).1 hstops)]
      have hfix := h.recorded_built.stoppedAfterAll_eq rest
      rw [stoppedAfterAll] at hfix
      rw [hfix, h.recorded_built.run_eq]
    · obtain ⟨hn', hbuilt⟩ := h.of_stoppedAfter hn
      rw [← hbuilt]
      exact ih hn' ((harmless_cons_of_le hn rest).1 hstops)

/-- After a stop that does harm the database is stuck. -/
theorem stuck_of_not_harmless (h : Unbuilt db) {stops : List Nat} (hstops : ¬ Harmless stops) :
    Stuck (stoppedAfterAll db stops) := by
  induction stops generalizing db with
  | nil => exact absurd (fun n hn ↦ nomatch hn) hstops
  | cons n rest ih =>
    rcases Nat.lt_or_ge 1 n with hn | hn
    · have hstuck := h.stuck_of_stoppedAfter hn
        (Nat.le_of_not_lt (mt (harmless_cons_of_lt hn rest).2 hstops))
      have hfix := hstuck.stoppedAfterAll_eq rest
      rw [stoppedAfterAll] at hfix ⊢
      rwa [List.foldl_cons, hfix]
    · exact ih (h.of_stoppedAfter hn).1 (mt (harmless_cons_of_le hn rest).2 hstops)

end Unbuilt

/-! ### Opening what was left -/

/-- The path leads to the database, or to nothing or an empty file if it is blank, and a database
can be put there. -/
structure KeptAt (f : Files) (path : String) (db : Database) : Prop where
  above : createAbove f path = .ok f
  found : databaseAt f path = .ok db
  place : ∀ db' : Database, (f.put? path (.database db')).isSome

/-- Opening succeeds where the run does. -/
theorem exists_openAt_iff {f : Files} {path : String} (h : KeptAt f path db) :
    (∃ opened, (openAt f path).1 = .ok opened) ↔ (run db).1 = .ok () := by
  obtain ⟨f', hput⟩ := Option.isSome_iff_exists.1 (h.place (run db).2)
  rw [openAt, h.above]
  simp only [h.found, hput, map_eq_ok]
  exact ⟨fun ⟨_, _, hran, _⟩ ↦ hran, fun hran ↦ ⟨_, (), hran, rfl⟩⟩

/-- A setup can be resumed if and only if its stops were harmless; then the schema is completed, and
otherwise the store cannot be opened again, however often it is tried. -/
theorem resumable_iff (h : Unbuilt db) (stops : List Nat) :
    ((run (stoppedAfterAll db stops)).1 = .ok () ↔ Harmless stops) ∧
    (Harmless stops → run (stoppedAfterAll db stops) = (.ok (), built db) ∧ Complete (built db)) ∧
    (¬ Harmless stops → ∀ later, run (stoppedAfterAll db (stops ++ later)) =
      (.error .engine, stoppedAfterAll db stops)) ∧
    ∀ f path, KeptAt f path (stoppedAfterAll db stops) →
      ((∃ opened, (openAt f path).1 = .ok opened) ↔ Harmless stops) := by
  have hiff : (run (stoppedAfterAll db stops)).1 = .ok () ↔ Harmless stops := by
    constructor
    · intro hrun
      by_contra hstops
      rw [(h.stuck_of_not_harmless hstops).run_eq] at hrun
      contradiction
    · intro hstops
      rw [h.run_of_harmless hstops]
  refine ⟨hiff, fun hstops ↦ ⟨h.run_of_harmless hstops, h.complete_built⟩, fun hstops later ↦ ?_,
    fun f path hkept ↦ (exists_openAt_iff hkept).trans hiff⟩
  have hstuck := h.stuck_of_not_harmless hstops
  have hlater : stoppedAfterAll db (stops ++ later) = stoppedAfterAll db stops := by
    rw [stoppedAfterAll, List.foldl_append]
    exact hstuck.stoppedAfterAll_eq later
  rw [hlater, hstuck.run_eq]

/-- A tree with only a database in it. -/
def onlyDatabase (db : Database) : Files := ⟨[(["db"], .database db)]⟩

theorem keptAt_onlyDatabase (db : Database) : KeptAt (onlyDatabase db) "db" db := by
  have hnames : Files.names "db" = ["db"] := by
    -- the path is split letter by letter, as the recursion of `splitOn` is not structural
    rw [Files.names, String.splitOn, if_neg (by decide),
      String.splitOnAux, if_neg (by decide), if_neg (by decide),
      String.splitOnAux, if_neg (by decide), if_neg (by decide),
      String.splitOnAux, if_pos (by decide)]
    decide +kernel
  refine ⟨?_, ?_, fun db' ↦ ?_⟩
  · rw [createAbove, hnames]
    rfl
  · rw [databaseAt, Files.get?, hnames]
    rfl
  · rw [Files.put?, hnames]
    rfl

/-- Stops before the first statement and after the versions table do no harm, and one in the middle
does. -/
theorem resumable_iff_of_blank : Unbuilt .blank ∧
    run (stoppedAfterAll .blank [0, 1]) = (.ok (), built .blank) ∧
    ¬ ∃ opened, (openAt (onlyDatabase (stoppedAfterAll .blank [1, 3])) "db").1 = .ok opened := by
  have hearly : Harmless [0, 1] := fun n hn ↦ nomatch hn
  have hmiddle : ¬ Harmless [1, 3] := fun h ↦ absurd (h 3 rfl) (by decide)
  exact ⟨unbuilt_blank, ((resumable_iff unbuilt_blank [0, 1]).2.1 hearly).1,
    mt ((resumable_iff unbuilt_blank [1, 3]).2.2.2 _ _ (keptAt_onlyDatabase _)).1 hmiddle⟩

/-- A setup that stops right before the version is recorded leaves the whole schema, and the store
can never be opened again. -/
theorem unrecorded_not_resumed :
    tables (stoppedAfter .blank 4) =
      ["migrations", "replication_message_targets", "replication_messages"] ∧
    indexes (stoppedAfter .blank 4) = ["idx_replication_message_targets_uri"] ∧
    run (stoppedAfter .blank 4) = (.error .engine, stoppedAfter .blank 4) ∧
    ¬ ∃ opened, (openAt (onlyDatabase (stoppedAfter .blank 4)) "db").1 = .ok opened := by
  refine ⟨rfl, rfl, rfl, mt (exists_openAt_iff (keptAt_onlyDatabase _)).1 ?_⟩
  exact fun hrun ↦ nomatch hrun

end PeerRelay.Store.Migration
