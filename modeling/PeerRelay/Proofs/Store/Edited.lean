import PeerRelay.Proofs.Store.Refinement
import PeerRelay.Proofs.Store.Resuming
import PeerRelay.Store.Edit

/-!
# Loading from a store that was edited

Another program may put any text or blob into the cells of messages and peers, and may delete rows
of peers (`Edited`). Whatever it does between the requests that a store serves (`Maintained`), both
tables are there, and the rows of the peers of a message stand in the order of their positions
(`Orderly`): an edit touches neither the owner nor the position of a row, and does not move it.

Of such a store loading makes one of two things. If some cell that is read is not of the kind of its
column (`Misread`), loading fails and changes nothing. Otherwise it sorts the rows of messages into
those that have peers and can be decoded, which are loaded, those that have peers only, which stay,
and those without peers, decodable or not, which are deleted (`load_of_not_misread`).
-/

namespace PeerRelay.Store

open Calendar

/-! ### Edits and requests in turn -/

/-- To whom the row belongs and at which place. -/
def TargetRow.place (row : TargetRow) : String × Nat :=
  (row.messageId, row.position)

/-- Any cells of messages and of peers were changed, and any rows of peers deleted. -/
structure Edited (db db' : Database) : Prop where
  versions : db'.versions = db.versions
  messages : ∃ before after, db.messages = some before ∧ db'.messages = some after ∧
    after.length = before.length
  /-- The rows that are left keep their owner, their position and their order. -/
  targets : ∃ before after, db.targets = some before ∧ db'.targets = some after ∧
    (after.map (·.place)).Sublist (before.map (·.place))

/-- A database that was set up from nothing, has served requests and was edited, in any order. -/
inductive Maintained : Database → Prop where
  | fresh : Maintained .fresh
  | serve {db : Database} (h : Maintained db) (request : Request) :
    Maintained (db.serve request).2
  | edit {db db' : Database} (h : Maintained db) (hedit : Edited db db') : Maintained db'

theorem TargetRow.place_set (row : TargetRow) (cell : Cell) (column : TargetColumn) :
    (row.set cell column).place = row.place := by
  cases column <;> rfl

/-- The edit changes cells or deletes rows of peers. -/
def Edit.Confined : Edit → Prop
  | .setMessage _ _ _ | .setTarget _ _ _ | .deleteTargets _ => True
  | .deleteMessage _ | .dropTargets | .dropMessages => False

theorem edited_of_exec {db db' : Database} {messages : List MessageRow} {targets : List TargetRow}
    (hm : db.messages = some messages) (ht : db.targets = some targets) {e : Edit} {n : Nat}
    (hconfined : e.Confined) (he : e.exec db = .ok (n, db')) : Edited db db' := by
  cases e with
  | setMessage id column cell =>
    simp only [Edit.exec, hm, rows, ok_bind] at he
    split at he
    · contradiction
    · obtain ⟨-, rfl⟩ := Prod.mk.inj (pure_eq_ok.1 he)
      exact ⟨rfl, ⟨messages, _, hm, rfl, List.length_map _⟩, targets, targets, ht, ht,
        List.Sublist.refl _⟩
  | setTarget id column cell =>
    simp only [Edit.exec, ht, rows, ok_bind] at he
    split at he
    · contradiction
    · obtain ⟨-, rfl⟩ := Prod.mk.inj (pure_eq_ok.1 he)
      refine ⟨rfl, ⟨messages, messages, hm, hm, rfl⟩, targets, _, ht, rfl, ?_⟩
      rw [List.map_map, List.map_congr_left (g := (·.place))]
      intro row _
      rw [Function.comp_apply]
      split
      · exact row.place_set cell column
      · rfl
  | deleteTargets id =>
    simp only [Edit.exec, ht, rows, ok_bind] at he
    obtain ⟨-, rfl⟩ := Prod.mk.inj (pure_eq_ok.1 he)
    exact ⟨rfl, ⟨messages, messages, hm, hm, rfl⟩, targets, _, ht, rfl,
      List.filter_sublist.map _⟩
  | deleteMessage id => exact hconfined.elim
  | dropTargets => exact hconfined.elim
  | dropMessages => exact hconfined.elim

/-! ### What is kept in order -/

/-- The rows of the peers of a message stand in the order of their positions. -/
def Ascending (targets : List TargetRow) : Prop :=
  targets.Pairwise fun a b ↦ a.messageId = b.messageId → a.position < b.position

theorem ascending_of_places {before after : List TargetRow} (h : Ascending before)
    (hplaces : (after.map (·.place)).Sublist (before.map (·.place))) : Ascending after := by
  have hpairs : (before.map (·.place)).Pairwise fun p q ↦ p.1 = q.1 → p.2 < q.2 :=
    List.pairwise_map.2 h
  exact List.pairwise_map.1 (hpairs.sublist hplaces)

theorem Ascending.filter {targets : List TargetRow} (h : Ascending targets)
    (p : TargetRow → Bool) : Ascending (targets.filter p) :=
  h.sublist List.filter_sublist

theorem Ascending.rowsOf {targets : List TargetRow} (h : Ascending targets) (id : String) :
    (rowsOf id targets).Pairwise fun a b ↦ a.position < b.position := by
  refine (h.filter _).imp_of_mem fun ha hb hlt ↦ hlt ?_
  exact (of_decide_eq_true (List.mem_filter.1 ha).2).trans
    (of_decide_eq_true (List.mem_filter.1 hb).2).symm

/-- What every request and every edit keeps. -/
structure Orderly (db : Database) : Prop where
  recorded : Migration.Recorded db
  messages : ∃ messages, db.messages = some messages
  targets : ∃ targets, db.targets = some targets ∧ Ascending targets

namespace Orderly

variable {db db' : Database}

theorem fresh : Orderly .fresh where
  recorded := ⟨Migration.currentVersion, Int.le_refl _, rfl⟩
  messages := ⟨[], rfl⟩
  targets := ⟨[], rfl, .nil⟩

theorem of_versions (h : Orderly db) (hversions : db'.versions = db.versions)
    (hmessages : ∃ messages, db'.messages = some messages)
    (htargets : ∃ targets, db'.targets = some targets ∧ Ascending targets) : Orderly db' := by
  obtain ⟨version, hle, hversion⟩ := h.recorded
  exact ⟨⟨version, hle, (Migration.recordedVersion_congr hversions).trans hversion⟩, hmessages,
    htargets⟩

theorem written (h : Orderly db) {m : Message} {distinct : List Instance}
    {messages : List MessageRow} {targets : List TargetRow} (ht : db.targets = some targets) :
    Orderly (written m distinct messages targets db) := by
  obtain ⟨targets', ht', hascending⟩ := h.targets
  obtain rfl : targets = targets' := Option.some.inj (ht.symm.trans ht')
  refine h.of_versions rfl ⟨_, rfl⟩ ⟨_, rfl, List.pairwise_append.2 ⟨hascending.filter _, ?_, ?_⟩⟩
  · refine List.Pairwise.imp ?_ (Listing.targetRows m.id 0 distinct).ascending
    intro a b hlt _
    exact hlt
  · -- the rows that were there belong to other messages
    intro a ha b hb heq
    rw [messageId_of_mem_targetRows hb] at heq
    exact absurd heq (of_decide_eq_true (List.mem_filter.1 ha).2)

theorem serve (h : Orderly db) (request : Request) : Orderly (db.serve request).2 := by
  cases request with
  | write m l =>
    show Orderly (Store.write db m l).2
    rcases hwrite : Store.write db m l with ⟨fault | record, left⟩
    · exact write_eq_error hwrite ▸ h
    · obtain ⟨-, messages, targets, -, ht, rfl⟩ := write_eq_ok hwrite
      exact h.written ht
  | remove id uri =>
    show Orderly (Store.remove db id uri).2
    rcases hremove : Store.remove db id uri with ⟨fault | _, left⟩
    · exact remove_eq_error hremove ▸ h
    · obtain ⟨messages, targets, -, ht, rfl⟩ := remove_eq_ok hremove
      obtain ⟨targets', ht', hascending⟩ := h.targets
      obtain rfl : targets = targets' := Option.some.inj (ht.symm.trans ht')
      exact h.of_versions rfl ⟨_, rfl⟩ ⟨_, rfl, hascending.filter _⟩
  | load =>
    show Orderly (Store.load db).2
    rcases hload : Store.load db with ⟨fault | records, left⟩
    · exact load_eq_error hload ▸ h
    · obtain ⟨messages, -, read, hm, -, -, -, rfl⟩ := load_eq_ok hload
      exact h.of_versions rfl ⟨_, congrArg (Option.map _) hm⟩ h.targets
  | count => exact h
  | countByTarget => exact h
  | reopen =>
    show Orderly (Migration.run db).2
    rw [h.recorded.run_eq]
    exact h

theorem edited (h : Orderly db) (hedit : Edited db db') : Orderly db' := by
  obtain ⟨-, after, -, hmessages, -⟩ := hedit.messages
  obtain ⟨before, after', hbefore, hafter, hplaces⟩ := hedit.targets
  obtain ⟨targets, ht, hascending⟩ := h.targets
  obtain rfl : targets = before := Option.some.inj (ht.symm.trans hbefore)
  exact h.of_versions hedit.versions ⟨after, hmessages⟩
    ⟨after', hafter, ascending_of_places hascending hplaces⟩

end Orderly

theorem Maintained.orderly {db : Database} (h : Maintained db) : Orderly db := by
  induction h with
  | fresh => exact Orderly.fresh
  | serve _ request ih => exact ih.serve request
  | edit _ hedit ih => exact ih.edited hedit

/-- The database after an edit; one that is refused changes nothing. -/
def Edit.apply (db : Database) (e : Edit) : Database :=
  match e.exec db with
  | .ok (_, db') => db'
  | .error _ => db

theorem Maintained.apply {db : Database} (h : Maintained db) {e : Edit} (he : e.Confined) :
    Maintained (e.apply db) := by
  obtain ⟨-, ⟨messages, hm⟩, targets, ht, -⟩ := h.orderly
  rw [Edit.apply]
  split
  · rename_i hexec
    exact .edit h (edited_of_exec hm ht he hexec)
  · exact h

/-- A database that was set up from nothing and has served requests before it was edited. -/
def Database.after (requests : List Request) (edits : List Edit) : Database :=
  edits.foldl Edit.apply (requests.foldl (fun db request ↦ (db.serve request).2) .fresh)

theorem maintained_after (requests : List Request) {edits : List Edit}
    (hedits : ∀ e ∈ edits, e.Confined) : Maintained (.after requests edits) := by
  have hserved : Maintained (requests.foldl (fun db request ↦ (db.serve request).2) .fresh) :=
    List.foldlRecOn requests _ .fresh fun _ h request _ ↦ h.serve request
  exact List.foldlRecOn edits _ hserved fun _ h e he ↦ h.apply (hedits e he)

/-! ### Kinds of rows -/

/-- Some cell of the row is not of the kind of its column. -/
def MessageRow.Mistyped (row : MessageRow) : Prop :=
  ∀ r : TypedRow, row ≠ r.cells

/-- Some cell of the row is not of the kind of its column. -/
def TargetRow.Mistyped (peer : TargetRow) : Prop :=
  ∀ i : Instance, ¬ (peer.name = .text i.name ∧ peer.uri = .text i.uri)

theorem MessageRow.not_mistyped_iff {row : MessageRow} :
    ¬ row.Mistyped ↔ ∃ r, row.typed = .ok r := by
  simp only [Mistyped, not_forall, not_not, typed_eq_ok]

theorem TargetRow.not_mistyped_iff {peer : TargetRow} :
    ¬ peer.Mistyped ↔ ∃ i, peer.instance? = .ok i := by
  simp only [Mistyped, not_forall, not_not, instance?_eq_ok]

instance : DecidablePred MessageRow.Mistyped := fun row ↦
  decidable_of_iff (¬ row.typed.toOption.isSome) <| by
    rw [← not_iff_not, not_not, MessageRow.not_mistyped_iff, Option.isSome_iff_exists]
    simp only [toOption_eq_some]

instance : DecidablePred TargetRow.Mistyped := fun peer ↦
  decidable_of_iff (¬ peer.instance?.toOption.isSome) <| by
    rw [← not_iff_not, not_not, TargetRow.not_mistyped_iff, Option.isSome_iff_exists]
    simp only [toOption_eq_some]

/-- A cell that is read is not of the kind of its column: one of a message, or one of a peer of a
message that is there. -/
def Misread (messages : List MessageRow) (targets : List TargetRow) : Prop :=
  ∃ row ∈ messages, row.Mistyped ∨
    ∃ peer ∈ targets, row.id = .text peer.messageId ∧ peer.Mistyped

instance (messages : List MessageRow) (targets : List TargetRow) :
    Decidable (Misread messages targets) :=
  inferInstanceAs (Decidable (∃ row ∈ messages, row.Mistyped ∨
    ∃ peer ∈ targets, row.id = .text peer.messageId ∧ peer.Mistyped))

/-- The message has yet to reach a peer. -/
def HasPeer (targets : List TargetRow) (row : MessageRow) : Prop :=
  ∃ peer ∈ targets, row.id = .text peer.messageId

instance (targets : List TargetRow) : DecidablePred (HasPeer targets) := fun row ↦
  inferInstanceAs (Decidable (∃ peer ∈ targets, row.id = .text peer.messageId))

/-- The row holds the texts and bytes of the message. -/
structure MessageRow.Decodes (row : MessageRow) (m : Message) : Prop where
  id : row.id = .text m.id
  kind : row.kind = .text m.kind
  date : ∃ s, row.date = .text s ∧ DateText.decode s = .ok m.date
  source : row.source = m.source.map .text
  receivers : ∃ s, row.receivers = .text s ∧ Json.decodeText decodeTextSetJson s = .ok m.receivers
  metadata : ∃ s, row.metadata = .text s ∧ Json.decodeText Metadata.decodeJson s = .ok m.metadata
  payload : row.payload = .blob m.payload

theorem decodes_iff {row : MessageRow} {m : Message} :
    row.Decodes m ↔ ∃ r, row.typed = .ok r ∧ r.message? = some m := by
  simp only [typed_eq_ok, TypedRow.message?, Option.bind_eq_bind, Option.bind_eq_some_iff,
    Option.pure_def, Option.some.injEq, toOption_eq_some]
  constructor
  · obtain ⟨id, kind, date, source, receivers, metadata, payload⟩ := row
    rintro ⟨rfl, rfl, ⟨date, rfl, hdate⟩, rfl, ⟨receivers, rfl, hreceivers⟩,
      ⟨metadata, rfl, hmetadata⟩, rfl⟩
    exact ⟨⟨m.id, m.kind, date, m.source, receivers, metadata, m.payload⟩, rfl, _, hdate, _,
      hreceivers, _, hmetadata, rfl⟩
  · rintro ⟨r, rfl, date, hdate, receivers, hreceivers, metadata, hmetadata, rfl⟩
    exact ⟨rfl, rfl, ⟨_, rfl, hdate⟩, rfl, ⟨_, rfl, hreceivers⟩, ⟨_, rfl, hmetadata⟩, rfl⟩

theorem MessageRow.Decodes.unique {row : MessageRow} {m m' : Message} (h : row.Decodes m)
    (h' : row.Decodes m') : m = m' := by
  obtain ⟨r, hr, hm⟩ := decodes_iff.1 h
  obtain ⟨r', hr', hm'⟩ := decodes_iff.1 h'
  obtain rfl : r = r' := Except.ok.inj (hr.symm.trans hr')
  exact Option.some.inj (hm.symm.trans hm')

/-- The date, the receivers and the metadata of the row can be decoded. -/
def MessageRow.Decodable (row : MessageRow) : Prop :=
  ∃ m, row.Decodes m

instance : DecidablePred MessageRow.Decodable := fun row ↦
  decidable_of_iff (∃ r ∈ row.typed.toOption, r.message?.isSome = true) <| by
    simp only [MessageRow.Decodable, decodes_iff, Option.mem_def, toOption_eq_some,
      Option.isSome_iff_exists]
    exact ⟨fun ⟨r, hr, m, hm⟩ ↦ ⟨m, r, hr, hm⟩, fun ⟨m, r, hr, hm⟩ ↦ ⟨r, hr, m, hm⟩⟩

/-- The record has the message of the row, and the peers of the message by their positions. -/
structure LoadedAs (targets : List TargetRow) (row : MessageRow) (record : Record) : Prop where
  message : row.Decodes record.message
  peers : Listing (rowsOf record.message.id targets) record.targets

theorem Listing.unique {rows : List TargetRow} {l l' : List Instance} (h : Listing rows l)
    (h' : Listing rows l') : l = l' :=
  Except.ok.inj ((mapM_eq_ok.2 h.same).symm.trans (mapM_eq_ok.2 h'.same))

theorem LoadedAs.unique {targets : List TargetRow} {row : MessageRow} {record record' : Record}
    (h : LoadedAs targets row record) (h' : LoadedAs targets row record') : record = record' := by
  obtain ⟨m, l⟩ := record
  obtain ⟨m', l'⟩ := record'
  obtain rfl : m = m' := h.message.unique h'.message
  obtain rfl : l = l' := h.peers.unique h'.peers
  rfl

/-! ### What is loaded, what stays and what goes -/

section Load

variable {db : Database} {messages : List MessageRow} {targets : List TargetRow}

/-- The database without the messages that have no peers. -/
def withPeers (messages : List MessageRow) (targets : List TargetRow) (db : Database) : Database :=
  { db with messages := some (messages.filter (HasPeer targets ·)) }

/-- The rows of messages that have peers and can be decoded. -/
def loadable (messages : List MessageRow) (targets : List TargetRow) : List MessageRow :=
  messages.filter fun row ↦ HasPeer targets row ∧ row.Decodable

theorem not_misread_iff : ¬ Misread messages targets ↔ ∀ row ∈ messages, ∃ r, row.typed = .ok r ∧
    ∀ peer ∈ targetsOf r.id targets, ∃ i, peer.instance? = .ok i := by
  simp only [Misread, not_exists, not_and, not_or, MessageRow.not_mistyped_iff,
    TargetRow.not_mistyped_iff]
  refine forall₂_congr fun row _ ↦ ?_
  constructor
  · rintro ⟨⟨r, htyped⟩, hpeers⟩
    refine ⟨r, htyped, fun peer hpeer ↦ ?_⟩
    obtain ⟨hmem, hid⟩ := mem_targetsOf.1 hpeer
    exact hpeers peer hmem (by rw [id_of_typed htyped, hid])
  · rintro ⟨r, htyped, hpeers⟩
    refine ⟨⟨r, htyped⟩, fun peer hpeer hid ↦ hpeers peer (mem_targetsOf.2 ⟨hpeer, ?_⟩)⟩
    rw [id_of_typed htyped] at hid
    exact (Cell.text.inj hid).symm

/-- A message has peers if some were read. -/
theorem hasPeer_iff {row : MessageRow} {r : TypedRow} {l : List Instance}
    (htyped : row.typed = .ok r)
    (hread : (targetsOf r.id targets).mapM TargetRow.instance? = .ok l) :
    HasPeer targets row ↔ l ≠ [] := by
  have hlength := (mapM_eq_ok.1 hread).length_eq
  rw [← List.length_pos_iff, ← hlength, List.length_pos_iff_exists_mem, HasPeer, id_of_typed htyped]
  refine exists_congr fun peer ↦ ?_
  rw [mem_targetsOf, Cell.text.injEq, eq_comm]

/-- A row that has peers and can be decoded makes a record, and no other row does. -/
theorem record?_of_read (hascending : Ascending targets) {row : MessageRow}
    {r : TypedRow × List Instance} (htyped : row.typed = .ok r.1)
    (hread : (targetsOf r.1.id targets).mapM TargetRow.instance? = .ok r.2) :
    (HasPeer targets row ∧ row.Decodable ↔ (record? r).isSome) ∧
      ∀ record ∈ record? r, LoadedAs targets row record := by
  have hpeers := hasPeer_iff htyped hread
  obtain ⟨r, l⟩ := r
  constructor
  · cases l with
    | nil => simp [hpeers, record?]
    | cons i rest =>
      have hdecodable : row.Decodable ↔ r.message?.isSome := by
        simp only [MessageRow.Decodable, decodes_iff, htyped, Except.ok.injEq, exists_eq_left',
          Option.isSome_iff_exists]
      simp [hpeers, hdecodable, record?]
  · intro record hrecord
    obtain ⟨hmessage, htargets, hid⟩ := record?_eq_some hrecord
    refine ⟨decodes_iff.2 ⟨r, htyped, hmessage⟩, ?_, hascending.rowsOf _⟩
    rw [hid, htargets, ← targetsOf_eq_rowsOf (hascending.rowsOf _)]
    exact mapM_eq_ok.1 hread

/-- The ids that are purged are those of the messages without peers. -/
theorem purge_eq_withPeers {read : List (TypedRow × List Instance)}
    (hm : db.messages = some messages)
    (hrows : List.Forall₂ (fun row r ↦ row.typed = .ok r.1 ∧
      (targetsOf r.1.id targets).mapM TargetRow.instance? = .ok r.2) messages read) :
    purge db ((read.filter (·.2.isEmpty)).map (·.1.id)) = withPeers messages targets db := by
  rw [purge, withPeers, hm, Option.map_some]
  have hkept : ∀ row ∈ messages, ((read.filter (·.2.isEmpty)).map (·.1.id)).all
      (.text · ≠ row.id) = decide (HasPeer targets row) := by
    intro row hrow
    obtain ⟨r, hr, htyped, hread⟩ := exists_right_of_forall₂ hrows hrow
    rw [Bool.eq_iff_iff, List.all_eq_true, decide_eq_true_iff]
    constructor
    · intro hall
      by_contra hpeer
      rw [hasPeer_iff htyped hread, not_not] at hpeer
      have hpurged : r.1.id ∈ (read.filter (·.2.isEmpty)).map (·.1.id) :=
        List.mem_map_of_mem (List.mem_filter.2 ⟨hr, List.isEmpty_iff.2 hpeer⟩)
      exact of_decide_eq_true (hall _ hpurged) (id_of_typed htyped).symm
    · rintro ⟨peer, hpeer, hid⟩ id hpurged
      obtain ⟨r', hr', rfl⟩ := List.mem_map.1 hpurged
      obtain ⟨hmem, hempty⟩ := List.mem_filter.1 hr'
      obtain ⟨row', -, htyped', hread'⟩ := exists_left_of_forall₂ hrows hmem
      refine decide_eq_true fun heq ↦ (hasPeer_iff htyped' hread').1 ⟨peer, hpeer, ?_⟩
        (List.isEmpty_iff.1 hempty)
      rw [id_of_typed htyped', heq, hid]
  rw [List.filter_congr hkept]

theorem load_of_misread (hm : db.messages = some messages) (ht : db.targets = some targets)
    (h : Misread messages targets) : ∃ fault, load db = (.error fault, db) := by
  rcases hload : load db with ⟨fault | records, left⟩
  · rw [load_eq_error hload]
    exact ⟨fault, rfl⟩
  · obtain ⟨messages', targets', hm', ht', hrows⟩ := exists_load_iff.1 ⟨records, left, hload⟩
    obtain rfl : messages = messages' := Option.some.inj (hm.symm.trans hm')
    obtain rfl : targets = targets' := Option.some.inj (ht.symm.trans ht')
    exact absurd h (not_misread_iff.2 hrows)

/-- A database of which all cells can be read is loaded row by row. -/
theorem load_of_not_misread (hm : db.messages = some messages) (ht : db.targets = some targets)
    (hascending : Ascending targets) (h : ¬ Misread messages targets) :
    ∃ records, load db = (.ok records, withPeers messages targets db) ∧
      List.Forall₂ (LoadedAs targets) (loadable messages targets) records := by
  obtain ⟨records, db', hload⟩ := exists_load_iff.2 ⟨messages, targets, hm, ht, not_misread_iff.1 h⟩
  obtain ⟨messages', targets', read, hm', ht', hrows, rfl, rfl⟩ := load_eq_ok hload
  obtain rfl : messages = messages' := Option.some.inj (hm.symm.trans hm')
  obtain rfl : targets = targets' := Option.some.inj (ht.symm.trans ht')
  refine ⟨_, by rw [hload, purge_eq_withPeers hm hrows], forall₂_filter_filterMap ?_ hrows⟩
  rintro row r ⟨htyped, hread⟩
  rw [decide_eq_true_iff]
  exact record?_of_read hascending htyped hread

/-- What is kept can be read again, and all of it has peers. -/
theorem load_withPeers {records : List Record} (ht : db.targets = some targets)
    (hascending : Ascending targets) (h : ¬ Misread messages targets)
    (hrecords : List.Forall₂ (LoadedAs targets) (loadable messages targets) records) :
    load (withPeers messages targets db) = (.ok records, withPeers messages targets db) := by
  have hread : ¬ Misread (messages.filter (HasPeer targets ·)) targets := fun ⟨row, hrow, hcell⟩ ↦
    h ⟨row, List.mem_of_mem_filter hrow, hcell⟩
  have hm : (withPeers messages targets db).messages =
      some (messages.filter (HasPeer targets ·)) := rfl
  obtain ⟨records', hload, hrecords'⟩ := load_of_not_misread hm ht hascending hread
  have hloadable : loadable (messages.filter (HasPeer targets ·)) targets =
      loadable messages targets := by
    rw [loadable, List.filter_filter, loadable]
    refine List.filter_congr fun row _ ↦ ?_
    by_cases hpeer : HasPeer targets row <;> simp [hpeer]
  have hkept : withPeers (messages.filter (HasPeer targets ·)) targets
      (withPeers messages targets db) = withPeers messages targets db := by
    rw [withPeers, List.filter_filter, withPeers]
    simp
  rw [hloadable] at hrecords'
  obtain rfl : records' = records :=
    List.right_unique_forall₂' (R := LoadedAs targets) (fun _ _ _ ↦ LoadedAs.unique)
      hrecords' hrecords
  rw [hload, hkept]

end Load

/-- **Loading sorts the rows of a store that was edited, or leaves all of them.** Whatever requests
and edits a store has been through, loading fails if and only if a cell that it reads is not of the
kind of its column, and then changes nothing. Otherwise it answers one record for each row that has
peers and can be decoded, in the order of the rows and with the peers by their positions. It deletes
the rows of messages without peers and no others, so that a row that has peers and cannot be decoded
stays as it is. Loading once more answers the same and deletes nothing. -/
theorem load_of_maintained {db : Database} (h : Maintained db) :
    ∃ messages targets, db.messages = some messages ∧ db.targets = some targets ∧
      ((Misread messages targets ∧ ∃ fault, load db = (.error fault, db)) ∨
        ¬ Misread messages targets ∧ ∃ records,
          load db = (.ok records, withPeers messages targets db) ∧
          List.Forall₂ (LoadedAs targets) (loadable messages targets) records ∧
          load (withPeers messages targets db) = (.ok records, withPeers messages targets db)) := by
  obtain ⟨-, ⟨messages, hm⟩, targets, ht, hascending⟩ := h.orderly
  refine ⟨messages, targets, hm, ht, ?_⟩
  by_cases hread : Misread messages targets
  · exact .inl ⟨hread, load_of_misread hm ht hread⟩
  · obtain ⟨records, hload, hrecords⟩ := load_of_not_misread hm ht hascending hread
    exact .inr ⟨hread, records, hload, hrecords, load_withPeers ht hascending hread hrecords⟩

/-- Four messages, the first of them for two peers. -/
def fourWritten : List Request :=
  let a : Instance := ⟨"a", "http://a.local"⟩
  let b : Instance := ⟨"b", "http://b.local"⟩
  let message (id : String) : Message := { (default : Message) with id := id }
  [.write (message "1") [b, a], .write (message "2") [a], .write (message "3") [b],
    .write (message "4") [b]]

/-- The second message cannot be decoded any more; the other two lose their peers, and the last of
them could not be decoded either. -/
def threeSpoilt : List Edit :=
  [.setMessage "2" .date (.text "never"), .deleteTargets "3",
    .setMessage "4" .receivers (.text "["), .deleteTargets "4"]

/-- The first message is loaded, the second one stays and the other two go. With one more edit, of
the name of a peer, nothing is loaded and all four stay. -/
theorem load_after_spoiling :
    (∃ record left, load (.after fourWritten threeSpoilt) = (.ok [record], left) ∧
      record.message.id = "1" ∧
      record.targets = [⟨"b", "http://b.local"⟩, ⟨"a", "http://a.local"⟩] ∧
      left.messages.map (·.map (·.id)) = some [.text "1", .text "2"] ∧
      load left = (.ok [record], left)) ∧
    let misread := Database.after fourWritten (threeSpoilt ++ [.setTarget "2" .name (.blob [255])])
    (∃ fault, load misread = (.error fault, misread)) ∧
      misread.messages.map (·.map (·.id)) = some [.text "1", .text "2", .text "3", .text "4"] := by
  constructor
  · have hconfined : ∀ e ∈ threeSpoilt, e.Confined := by simp [threeSpoilt, Edit.Confined]
    obtain ⟨messages, targets, hm, ht, hload⟩ :=
      load_of_maintained (maintained_after fourWritten hconfined)
    obtain rfl : (Database.after fourWritten threeSpoilt).messages.getD [] = messages := by
      rw [hm, Option.getD_some]
    obtain rfl : (Database.after fourWritten threeSpoilt).targets.getD [] = targets := by
      rw [ht, Option.getD_some]
    rcases hload with ⟨hmisread, -⟩ | ⟨-, records, hload, hrecords, hagain⟩
    · exact absurd hmisread (by decide +kernel)
    · have hloadable : loadable ((Database.after fourWritten threeSpoilt).messages.getD [])
          ((Database.after fourWritten threeSpoilt).targets.getD []) =
            [.ofMessage { (default : Message) with id := "1" }] := by
        decide +kernel
      rw [hloadable] at hrecords
      obtain ⟨record, _, hrecord, hnil, rfl⟩ := List.forall₂_cons_left_iff.1 hrecords
      cases hnil
      have hid : record.message.id = "1" := (Cell.text.inj hrecord.message.id).symm
      have hrows : rowsOf "1" ((Database.after fourWritten threeSpoilt).targets.getD []) =
          targetRows "1" 0 [⟨"b", "http://b.local"⟩, ⟨"a", "http://a.local"⟩] := by
        decide +kernel
      have hpeers := hrecord.peers
      rw [hid, hrows] at hpeers
      exact ⟨record, _, hload, hid, hpeers.unique (Listing.targetRows _ _ _), by decide +kernel,
        hagain⟩
  · intro misread
    have hconfined : ∀ e ∈ threeSpoilt ++ [.setTarget "2" .name (.blob [255])], e.Confined := by
      simp [threeSpoilt, Edit.Confined]
    obtain ⟨messages, targets, hm, ht, hload⟩ :=
      load_of_maintained (maintained_after fourWritten hconfined)
    obtain rfl : misread.messages.getD [] = messages := by rw [hm, Option.getD_some]
    obtain rfl : misread.targets.getD [] = targets := by rw [ht, Option.getD_some]
    refine ⟨?_, by decide +kernel⟩
    rcases hload with ⟨-, hfault⟩ | ⟨hread, -⟩
    · exact hfault
    · exact absurd (by decide +kernel) hread

end PeerRelay.Store
