import PeerRelay.Proofs.Store.Holdings

/-!
# What is loaded

Loading reads the rows of the messages one by one, each with the rows of its peers, and succeeds if
all their cells have their kinds (`exists_load_iff`). A record comes from one row and wants what the
store wants (`row_of_mem_load`, `wants_of_mem_load`); from a keyed store no peer of a message is
loaded twice (`nodup_of_load`). A row that can be decoded and still has a peer is loaded with this
peer (`mem_load`), and loading keeps it (`stores_load`).
-/

namespace PeerRelay.Store

open Database

/-! ### Reading cells -/

theorem text?_eq_ok {cell : Cell} {s : String} : cell.text? = .ok s ↔ cell = .text s := by
  cases cell <;> simp [Cell.text?]

theorem bytes?_eq_ok {cell : Cell} {bytes : List UInt8} :
    cell.bytes? = .ok bytes ↔ cell = .blob bytes := by
  cases cell <;> simp [Cell.bytes?]

theorem mapM_text?_eq_ok {cell : Option Cell} {s : Option String} :
    cell.mapM Cell.text? = .ok s ↔ cell = s.map .text := by
  cases cell with
  | none =>
    rw [Option.mapM_none, pure_eq_ok]
    cases s <;> simp
  | some cell =>
    rw [Option.mapM_some]
    cases cell <;> cases s <;> simp [Cell.text?, Functor.map, Except.map]

/-- The row that holds values of the kinds of its columns. -/
def TypedRow.cells (r : TypedRow) : MessageRow where
  id := .text r.id
  kind := .text r.kind
  date := .text r.date
  source := r.source.map .text
  receivers := .text r.receivers
  metadata := .text r.metadata
  payload := .blob r.payload

theorem typed_eq_ok {row : MessageRow} {r : TypedRow} : row.typed = .ok r ↔ row = r.cells := by
  obtain ⟨id, kind, date, source, receivers, metadata, payload⟩ := row
  obtain ⟨id', kind', date', source', receivers', metadata', payload'⟩ := r
  simp only [MessageRow.typed, bind_eq_ok, pure_eq_ok, text?_eq_ok, bytes?_eq_ok, mapM_text?_eq_ok,
    TypedRow.cells, MessageRow.mk.injEq, TypedRow.mk.injEq]
  constructor
  · rintro ⟨s, hs, i, hi, k, hk, d, hd, rs, hrs, m, hm, p, hp, rfl, rfl, rfl, rfl, rfl, rfl, rfl⟩
    exact ⟨hi, hk, hd, hs, hrs, hm, hp⟩
  · rintro ⟨hi, hk, hd, hs, hrs, hm, hp⟩
    exact ⟨_, hs, _, hi, _, hk, _, hd, _, hrs, _, hm, _, hp, rfl, rfl, rfl, rfl, rfl, rfl, rfl⟩

theorem id_of_typed {row : MessageRow} {r : TypedRow} (h : row.typed = .ok r) :
    row.id = .text r.id :=
  congrArg MessageRow.id (typed_eq_ok.1 h)

theorem instance?_eq_ok {row : TargetRow} {i : Instance} :
    row.instance? = .ok i ↔ row.name = .text i.name ∧ row.uri = .text i.uri := by
  simp only [TargetRow.instance?, bind_eq_ok, pure_eq_ok, text?_eq_ok]
  constructor
  · rintro ⟨name, hname, uri, huri, rfl⟩
    exact ⟨hname, huri⟩
  · rintro ⟨hname, huri⟩
    exact ⟨_, hname, _, huri, rfl⟩

theorem uri_of_instance? {row : TargetRow} {i : Instance} (h : row.instance? = .ok i) :
    row.uri = .text i.uri :=
  (instance?_eq_ok.1 h).2

/-! ### Reading rows -/

/-- What reading the rows of a store amounts to: each row is typed, and each of its peers is read.
-/
theorem readRows_eq_ok {db : Database} {read : List (TypedRow × List Instance)}
    (h : readRows db = .ok read) :
    ∃ messages targets, db.messages = some messages ∧ db.targets = some targets ∧
      List.Forall₂ (fun row r ↦ row.typed = .ok r.1 ∧
        (targetsOf r.1.id targets).mapM TargetRow.instance? = .ok r.2) messages read := by
  simp only [readRows, bind_eq_ok, rows_eq_ok, mapM_eq_ok, pure_eq_ok] at h
  obtain ⟨messages, hm, typed, htyped, targets, ht, hread⟩ := h
  -- the rows are typed all together before the first peer is read
  refine ⟨messages, targets, hm, ht, forall₂_trans ?_ htyped hread⟩
  rintro row typed r hrow ⟨l, hl, rfl⟩
  exact ⟨hrow, mapM_eq_ok.2 hl⟩

/-- The rows of a table that was loaded, and what came of it. -/
theorem load_eq_ok {db db' : Database} {records : List Record} (h : load db = (.ok records, db')) :
    ∃ messages targets read, db.messages = some messages ∧ db.targets = some targets ∧
      List.Forall₂ (fun row r ↦ row.typed = .ok r.1 ∧
        (targetsOf r.1.id targets).mapM TargetRow.instance? = .ok r.2) messages read ∧
      records = read.filterMap record? ∧
      db' = purge db ((read.filter (·.2.isEmpty)).map (·.1.id)) := by
  rw [load] at h
  split at h
  · simp at h
  · rename_i read hread
    obtain ⟨messages, targets, hm, ht, hrows⟩ := readRows_eq_ok hread
    obtain ⟨hrecords, rfl⟩ := Prod.mk.inj h
    exact ⟨messages, targets, read, hm, ht, hrows, (Except.ok.inj hrecords).symm, rfl⟩

/-- A store can be loaded if its cells have their kinds: those of its messages and those of the
peers of these messages. -/
theorem exists_load_iff {db : Database} : (∃ records db', load db = (.ok records, db')) ↔
    ∃ messages targets, db.messages = some messages ∧ db.targets = some targets ∧
      ∀ row ∈ messages, ∃ r, row.typed = .ok r ∧
        ∀ peer ∈ targetsOf r.id targets, ∃ i, peer.instance? = .ok i := by
  constructor
  · rintro ⟨records, db', h⟩
    obtain ⟨messages, targets, read, hm, ht, hrows, -, -⟩ := load_eq_ok h
    refine ⟨messages, targets, hm, ht, fun row hrow ↦ ?_⟩
    obtain ⟨r, -, htyped, hpeers⟩ := exists_right_of_forall₂ hrows hrow
    exact ⟨r.1, htyped, exists_mapM_eq_ok.1 ⟨r.2, hpeers⟩⟩
  · rintro ⟨messages, targets, hm, ht, hrows⟩
    obtain ⟨typed, htyped⟩ :=
      exists_mapM_eq_ok.2 fun row hrow ↦ (hrows row hrow).imp fun _ ↦ And.left
    have hpeers : ∀ r ∈ typed, ∃ read, (do
        return (r, ← (targetsOf r.id targets).mapM TargetRow.instance?) :
          Except StoreFault (TypedRow × List Instance)) = .ok read := by
      intro r hr
      obtain ⟨row, hrow, hr⟩ := exists_left_of_forall₂ (mapM_eq_ok.1 htyped) hr
      obtain ⟨r', hr', hpeers⟩ := hrows row hrow
      obtain rfl : r = r' := Except.ok.inj (hr.symm.trans hr')
      obtain ⟨l, hl⟩ := exists_mapM_eq_ok.2 hpeers
      exact ⟨(r, l), bind_eq_ok.2 ⟨l, hl, rfl⟩⟩
    obtain ⟨read, hread⟩ := exists_mapM_eq_ok.2 hpeers
    have hrows : readRows db = .ok read := by
      rw [readRows, hm, ht]
      simp only [rows, ok_bind, htyped]
      exact hread
    rw [load, hrows]
    exact ⟨_, _, rfl⟩

/-- Loading that fails changes nothing. -/
theorem load_eq_error {db db' : Database} {fault : StoreFault}
    (h : load db = (.error fault, db')) : db' = db := by
  rw [load] at h
  split at h
  · exact (Prod.mk.inj h).2.symm
  · simp at h

/-- A record is made of a row that has peers and can be decoded. -/
theorem record?_eq_some {r : TypedRow × List Instance} {record : Record}
    (h : record? r = some record) :
    r.1.message? = some record.message ∧ record.targets = r.2 ∧ record.message.id = r.1.id := by
  obtain ⟨row, targets⟩ := r
  cases targets with
  | nil => cases h
  | cons i rest =>
    obtain ⟨m, hm, rfl⟩ := Option.map_eq_some_iff.1 h
    refine ⟨hm, rfl, ?_⟩
    simp only [TypedRow.message?, Option.bind_eq_bind, Option.bind_eq_some_iff, Option.pure_def,
      Option.some.injEq] at hm
    obtain ⟨date, -, receivers, -, metadata, -, rfl⟩ := hm
    rfl

theorem mem_targetsOf {id : String} {targets : List TargetRow} {row : TargetRow} :
    row ∈ targetsOf id targets ↔ row ∈ targets ∧ row.messageId = id := by
  rw [targetsOf, List.mem_mergeSort, List.mem_filter, decide_eq_true_iff]

/-- The peers of a row that was read are those that the store wants. -/
theorem mem_read_iff {db : Database} {targets : List TargetRow} {id uri : String}
    {l : List Instance} (ht : db.targets = some targets)
    (h : (targetsOf id targets).mapM TargetRow.instance? = .ok l) :
    (∃ i ∈ l, i.uri = uri) ↔ db.Wants id uri := by
  have hpairs := mapM_eq_ok.1 h
  constructor
  · rintro ⟨i, hi, rfl⟩
    obtain ⟨row, hrow, hi⟩ := exists_left_of_forall₂ hpairs hi
    obtain ⟨hmem, hid⟩ := mem_targetsOf.1 hrow
    exact ⟨targets, ht, row, hmem, hid, uri_of_instance? hi⟩
  · rintro ⟨rows, hrows, row, hrow, hid, huri⟩
    obtain rfl : targets = rows := Option.some.inj (ht.symm.trans hrows)
    obtain ⟨i, hi, hrowi⟩ := exists_right_of_forall₂ hpairs (mem_targetsOf.2 ⟨hrow, hid⟩)
    exact ⟨i, hi, Cell.text.inj ((uri_of_instance? hrowi).symm.trans huri)⟩

/-! ### What comes of a store -/

section Load

variable {db db' : Database} {records : List Record}

/-- A record comes from the row of a message, which was decoded. -/
theorem row_of_mem_load {record : Record} (h : load db = (.ok records, db'))
    (hrecord : record ∈ records) : ∃ row r, db.Stores row ∧ row.typed = .ok r ∧
      r.message? = some record.message ∧ record.message.id = r.id := by
  obtain ⟨messages, targets, read, hm, ht, hrows, rfl, rfl⟩ := load_eq_ok h
  obtain ⟨r, hr, hrecord⟩ := List.mem_filterMap.1 hrecord
  obtain ⟨row, hrow, htyped, -⟩ := exists_left_of_forall₂ hrows hr
  obtain ⟨hmessage, -, hid⟩ := record?_eq_some hrecord
  exact ⟨row, r.1, ⟨messages, hm, hrow⟩, htyped, hmessage, hid⟩

/-- A record has the peers that the store wants. -/
theorem wants_of_mem_load {record : Record} {i : Instance} (h : load db = (.ok records, db'))
    (hrecord : record ∈ records) (hi : i ∈ record.targets) : db.Wants record.message.id i.uri := by
  obtain ⟨messages, targets, read, hm, ht, hrows, rfl, rfl⟩ := load_eq_ok h
  obtain ⟨r, hr, hrecord⟩ := List.mem_filterMap.1 hrecord
  obtain ⟨row, -, -, hread⟩ := exists_left_of_forall₂ hrows hr
  obtain ⟨-, htargets, hid⟩ := record?_eq_some hrecord
  rw [htargets] at hi
  rw [hid]
  exact (mem_read_iff ht hread).1 ⟨i, hi, rfl⟩

/-- A row that can be decoded is loaded with the peers that the store wants. -/
theorem mem_load {row : MessageRow} {r : TypedRow} {m : Message} {uri : String}
    (h : load db = (.ok records, db')) (hrow : db.Stores row) (htyped : row.typed = .ok r)
    (hm : r.message? = some m) (hwants : db.Wants r.id uri) :
    ∃ record ∈ records, record.message = m ∧ ∃ i ∈ record.targets, i.uri = uri := by
  obtain ⟨messages, targets, read, hmessages, ht, hrows, rfl, rfl⟩ := load_eq_ok h
  obtain ⟨rows, hrows', hmem⟩ := hrow
  obtain rfl : messages = rows := Option.some.inj (hmessages.symm.trans hrows')
  obtain ⟨⟨r', l⟩, hr, htyped', hread⟩ := exists_right_of_forall₂ hrows hmem
  obtain rfl : r = r' := Except.ok.inj (htyped.symm.trans htyped')
  obtain ⟨i, hi, huri⟩ := (mem_read_iff ht hread).2 hwants
  refine ⟨⟨m, l⟩, List.mem_filterMap.2 ⟨(r, l), hr, ?_⟩, rfl, i, hi, huri⟩
  cases l with
  | nil => exact absurd hi List.not_mem_nil
  | cons j rest =>
    show r.message?.map _ = _
    rw [hm]
    rfl

theorem wants_load {id uri : String} (h : load db = (.ok records, db')) :
    db'.Wants id uri ↔ db.Wants id uri := by
  obtain ⟨-, -, read, -, -, -, -, rfl⟩ := load_eq_ok h
  exact wants_purge

theorem stores_of_load {row : MessageRow} (h : load db = (.ok records, db'))
    (hrow : db'.Stores row) : db.Stores row := by
  obtain ⟨-, -, read, -, -, -, -, rfl⟩ := load_eq_ok h
  exact (stores_purge.1 hrow).1

/-- Loading keeps the row of a message that wants a peer. -/
theorem stores_load {row : MessageRow} {id uri : String} (h : load db = (.ok records, db'))
    (hrow : db.Stores row) (hid : row.id = .text id) (hwants : db.Wants id uri) :
    db'.Stores row := by
  obtain ⟨messages, targets, read, hm, ht, hrows, -, rfl⟩ := load_eq_ok h
  refine stores_purge.2 ⟨hrow, fun id' hid' heq ↦ ?_⟩
  -- what is purged had no peers when it was read
  obtain ⟨r, hr, rfl⟩ := List.mem_map.1 hid'
  obtain ⟨hread, hempty⟩ := List.mem_filter.1 hr
  obtain ⟨row', -, -, htargets⟩ := exists_left_of_forall₂ hrows hread
  obtain rfl : id = r.1.id := Cell.text.inj (hid.symm.trans heq)
  obtain ⟨i, hi, -⟩ := (mem_read_iff ht htargets).2 hwants
  rw [List.isEmpty_iff.1 hempty] at hi
  exact absurd hi List.not_mem_nil

theorem keyed_load (h : load db = (.ok records, db')) (keyed : db.Keyed) : db'.Keyed := by
  obtain ⟨-, -, read, -, -, -, -, rfl⟩ := load_eq_ok h
  exact keyed_purge keyed

/-! ### From a keyed store -/

theorem ids_filterMap_sublist (read : List (TypedRow × List Instance)) :
    ((read.filterMap record?).map (·.message.id)).Sublist (read.map (·.1.id)) := by
  induction read with
  | nil => exact List.Sublist.refl _
  | cons r rest ih =>
    cases hr : record? r with
    | none =>
      rw [List.filterMap_cons_none hr]
      exact ih.trans (List.sublist_cons_self _ _)
    | some record =>
      rw [List.filterMap_cons_some hr, List.map_cons, List.map_cons, (record?_eq_some hr).2.2]
      exact ih.cons_cons _

/-- The peers of a row that was read have different URIs. -/
theorem uris_of_read {id : String} {targets : List TargetRow} {l : List Instance}
    (h : (targetsOf id targets).mapM TargetRow.instance? = .ok l)
    (keyed : (targets.map fun row ↦ (row.messageId, row.uri)).Nodup) :
    (l.map (·.uri)).Nodup := by
  have huris : (targetsOf id targets).map (·.uri) = (l.map (·.uri)).map .text := by
    rw [List.map_map]
    exact map_eq_of_forall₂ (fun _ _ hrow ↦ uri_of_instance? hrow) (mapM_eq_ok.1 h)
  have hkeys : ((targetsOf id targets).map fun row ↦ (row.messageId, row.uri)).Nodup :=
    (List.Perm.nodup_iff ((List.mergeSort_perm _ _).map _)).2
      (keyed.sublist (List.filter_sublist.map _))
  have hpairs : ((targetsOf id targets).map fun row ↦ (row.messageId, row.uri)) =
      ((targetsOf id targets).map (·.uri)).map (id, ·) := by
    rw [List.map_map]
    refine List.map_congr_left fun row hrow ↦ ?_
    show (row.messageId, row.uri) = (id, row.uri)
    rw [(mem_targetsOf.1 hrow).2]
  rw [hpairs, huris] at hkeys
  exact List.Nodup.of_map _ (List.Nodup.of_map _ hkeys)

/-- From a keyed store no peer of a message is loaded twice. -/
theorem nodup_of_load (h : load db = (.ok records, db')) (keyed : db.Keyed) :
    (records.flatMap fun record ↦
      record.targets.map fun i ↦ (record.message.id, i.uri)).Nodup := by
  obtain ⟨messages, targets, read, hm, ht, hrows, rfl, -⟩ := load_eq_ok h
  have hids : messages.map (·.id) = (read.map (·.1.id)).map .text := by
    rw [List.map_map]
    exact map_eq_of_forall₂ (fun _ _ hrow ↦ id_of_typed hrow.1) hrows
  have hread : (read.map (·.1.id)).Nodup := by
    have hmessages := keyed.messages messages hm
    rw [hids] at hmessages
    exact List.Nodup.of_map _ hmessages
  have hrecords : ((read.filterMap record?).map (·.message.id)).Nodup :=
    hread.sublist (ids_filterMap_sublist read)
  -- within a record the URIs differ, and between two records the ids do
  refine List.nodup_flatMap.2 ⟨fun record hrecord ↦ ?_, ?_⟩
  · obtain ⟨r, hr, hsome⟩ := List.mem_filterMap.1 hrecord
    obtain ⟨row, -, -, hl⟩ := exists_left_of_forall₂ hrows hr
    obtain ⟨-, htargets, -⟩ := record?_eq_some hsome
    have huris := uris_of_read hl (keyed.targets targets ht)
    have hpairs : record.targets.map (fun i ↦ (record.message.id, i.uri)) =
        (r.2.map (·.uri)).map (record.message.id, ·) := by
      rw [htargets, List.map_map]
      rfl
    rw [hpairs]
    exact huris.map fun _ _ heq ↦ (Prod.mk.inj heq).2
  · refine (List.pairwise_map.1 hrecords).imp ?_
    intro record record' hne pair hpair hpair'
    obtain ⟨i, -, rfl⟩ := List.mem_map.1 hpair
    obtain ⟨j, -, heq⟩ := List.mem_map.1 hpair'
    exact hne (congrArg Prod.fst heq).symm

end Load

/-! ### Messages that wait for a peer -/

/-- A message is there, as it was written, and has yet to reach a peer. -/
def Database.Holds (db : Database) (m : Message) (uri : String) : Prop :=
  db.Stores (.ofMessage m) ∧ db.Wants m.id uri

section Holds

variable {db db' : Database} {m : Message} {uri : String}

/-- A message that was written is there, for each of its peers. -/
theorem holds_of_write {l : List Instance} {record : Record} {i : Instance}
    (h : write db m l = (.ok record, db')) (hi : i ∈ l) : db'.Holds m i.uri := by
  have hwants : db'.Wants m.id i.uri := (wants_write h).2 (Or.inl ⟨rfl, i, hi, rfl⟩)
  obtain ⟨-, messages, targets, -, -, rfl⟩ := write_eq_ok h
  exact ⟨stores_written_self, hwants⟩

/-- Writing another message touches nothing. -/
theorem holds_write {m' : Message} {l : List Instance} {record : Record}
    (h : write db m' l = (.ok record, db')) (hne : m.id ≠ m'.id) (hm : db.Holds m uri) :
    db'.Holds m uri := by
  have hwants : db'.Wants m.id uri := (wants_write h).2 (Or.inr ⟨hne, hm.2⟩)
  obtain ⟨-, messages, targets, hmessages, -, rfl⟩ := write_eq_ok h
  exact ⟨stores_written_of_ne hmessages hm.1 fun heq ↦ hne (Cell.text.inj heq), hwants⟩

/-- Taking off another peer, or a peer of another message, leaves the message for the peer. -/
theorem holds_remove {id uri' : String} (h : remove db id uri' = (.ok (), db'))
    (hne : ¬ (m.id = id ∧ uri = uri')) (hm : db.Holds m uri) : db'.Holds m uri := by
  obtain ⟨messages, targets, hmessages, ht, rfl⟩ := remove_eq_ok h
  have hwants : (removed id uri' messages targets db).Wants m.id uri :=
    (wants_removed ht).2 ⟨hm.2, hne⟩
  exact ⟨stores_removed hmessages hm.1 hwants, hwants⟩

theorem holds_load {records : List Record} (h : load db = (.ok records, db'))
    (hm : db.Holds m uri) : db'.Holds m uri :=
  ⟨stores_load h hm.1 rfl hm.2, (wants_load h).2 hm.2⟩

end Holds

end PeerRelay.Store
