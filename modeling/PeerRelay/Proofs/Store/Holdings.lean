import PeerRelay.Proofs.Store.Operations

/-!
# What the store holds

Two views of the tables that do not depend on the order of their rows: which rows of messages there
are (`Database.Stores`), and which peers a message has yet to reach (`Database.Wants`). What each
operation does to them is said here, and what it does to the keys of the tables: no message has two
rows, and no message has two rows for one peer (`Database.Keyed`), which is what the primary keys of
the tables are for.
-/

namespace PeerRelay.Store

namespace Database

/-- The row of a message is there. -/
def Stores (db : Database) (row : MessageRow) : Prop :=
  ∃ messages, db.messages = some messages ∧ row ∈ messages

/-- The message with the id has yet to reach the peer with the URI. -/
def Wants (db : Database) (id uri : String) : Prop :=
  ∃ targets, db.targets = some targets ∧ ∃ row ∈ targets, row.messageId = id ∧ row.uri = .text uri

/-- Each message has one row, and one row for each of its peers. -/
structure Keyed (db : Database) : Prop where
  messages : ∀ messages, db.messages = some messages → (messages.map (·.id)).Nodup
  targets : ∀ targets, db.targets = some targets →
    (targets.map fun row ↦ (row.messageId, row.uri)).Nodup

end Database

open Database

theorem keyed_fresh : Database.fresh.Keyed where
  messages _ hm := by
    cases hm
    exact List.nodup_nil
  targets _ ht := by
    cases ht
    exact List.nodup_nil

/-! ### The rows of a write -/

/-- The peers of a write are those of its rows. -/
theorem mem_targetRows {id id' uri : String} {l : List Instance} (position : Nat) :
    (∃ row ∈ targetRows id position l, row.messageId = id' ∧ row.uri = .text uri) ↔
      id' = id ∧ ∃ i ∈ l, i.uri = uri := by
  have hmap := map_targetRows id position l
  have hmem : (id', Cell.text uri) ∈ (targetRows id position l).map
      (fun row ↦ (row.messageId, row.uri)) ↔ (id', Cell.text uri) ∈
        l.map fun i ↦ (id, Cell.text i.uri) := by rw [hmap]
  simp only [List.mem_map, Prod.mk.injEq] at hmem
  rw [hmem]
  constructor
  · rintro ⟨i, hi, rfl, huri⟩
    exact ⟨rfl, i, hi, Cell.text.inj huri⟩
  · rintro ⟨rfl, i, hi, rfl⟩
    exact ⟨i, hi, rfl, rfl⟩

/-! ### After a write -/

section Write

variable {m : Message} {distinct : List Instance} {messages : List MessageRow}
  {targets : List TargetRow} {db : Database}

theorem mem_upsert_of_ne {row r : MessageRow} {table : List MessageRow} (hr : r ∈ table)
    (hne : r.id ≠ row.id) : r ∈ upsert row table := by
  rw [upsert]
  split
  · exact List.mem_map.2 ⟨r, hr, if_neg hne⟩
  · exact List.mem_append_left _ hr

theorem mem_of_mem_upsert {row r : MessageRow} {table : List MessageRow}
    (hr : r ∈ upsert row table) : r = row ∨ r ∈ table := by
  rw [upsert] at hr
  split at hr
  · obtain ⟨s, hs, hsr⟩ := List.mem_map.1 hr
    split at hsr
    · exact Or.inl hsr.symm
    · exact Or.inr (hsr ▸ hs)
  · rcases List.mem_append.1 hr with htable | hself
    · exact Or.inr htable
    · exact Or.inl (List.mem_singleton.1 hself)

/-- A write leaves no other row with its id. -/
theorem eq_of_mem_upsert {row r : MessageRow} {table : List MessageRow}
    (hr : r ∈ upsert row table) (hid : r.id = row.id) : r = row := by
  rw [upsert] at hr
  split at hr
  · obtain ⟨s, -, rfl⟩ := List.mem_map.1 hr
    split at hid
    · rename_i hs
      exact if_pos hs
    · rename_i hs
      exact absurd hid hs
  · rename_i hnone
    rcases List.mem_append.1 hr with htable | hself
    · exact absurd (List.any_eq_true.2 ⟨r, htable, decide_eq_true hid⟩) hnone
    · exact List.mem_singleton.1 hself

/-- A write keeps the ids of the messages, and adds one if it is new. -/
theorem map_id_upsert (row : MessageRow) (table : List MessageRow) :
    (upsert row table).map (·.id) = table.map (·.id) ∧ row.id ∈ table.map (·.id) ∨
      (upsert row table).map (·.id) = table.map (·.id) ++ [row.id] ∧
        row.id ∉ table.map (·.id) := by
  rw [upsert]
  split
  · rename_i hany
    obtain ⟨r, hr, hid⟩ := List.any_eq_true.1 hany
    refine Or.inl ⟨?_, List.mem_map.2 ⟨r, hr, of_decide_eq_true hid⟩⟩
    rw [List.map_map]
    refine List.map_congr_left fun s _ ↦ ?_
    show (if s.id = row.id then row else s).id = s.id
    split
    · rename_i heq
      exact heq.symm
    · rfl
  · rename_i hany
    refine Or.inr ⟨by rw [List.map_append]; rfl, fun hmem ↦ hany ?_⟩
    obtain ⟨r, hr, hid⟩ := List.mem_map.1 hmem
    exact List.any_eq_true.2 ⟨r, hr, decide_eq_true hid⟩

theorem stores_written_self : (written m distinct messages targets db).Stores (.ofMessage m) :=
  ⟨_, rfl, mem_upsert_self _ _⟩

theorem stores_written_of_ne {row : MessageRow} (hm : db.messages = some messages)
    (h : db.Stores row) (hne : row.id ≠ .text m.id) :
    (written m distinct messages targets db).Stores row := by
  obtain ⟨messages', hm', hrow⟩ := h
  obtain rfl : messages = messages' := Option.some.inj (hm.symm.trans hm')
  exact ⟨_, rfl, mem_upsert_of_ne hrow hne⟩

theorem stores_of_written {row : MessageRow} (hm : db.messages = some messages)
    (h : (written m distinct messages targets db).Stores row) :
    row = .ofMessage m ∨ db.Stores row := by
  obtain ⟨messages', hm', hrow⟩ := h
  cases hm'
  exact (mem_of_mem_upsert hrow).imp_right fun hmem ↦ ⟨messages, hm, hmem⟩

theorem wants_written {id uri : String} (ht : db.targets = some targets) :
    (written m distinct messages targets db).Wants id uri ↔
      (id = m.id ∧ ∃ i ∈ distinct, i.uri = uri) ∨ (id ≠ m.id ∧ db.Wants id uri) := by
  rw [← mem_targetRows 0]
  constructor
  · rintro ⟨rows, hrows, row, hrow, hid, huri⟩
    cases hrows
    rcases List.mem_append.1 hrow with hold | hnew
    · obtain ⟨hmem, hne⟩ := List.mem_filter.1 hold
      refine Or.inr ⟨?_, targets, ht, row, hmem, hid, huri⟩
      rw [← hid]
      exact of_decide_eq_true hne
    · exact Or.inl ⟨row, hnew, hid, huri⟩
  · rintro (⟨row, hrow, hid, huri⟩ | ⟨hne, rows, hrows, row, hrow, hid, huri⟩)
    · exact ⟨_, rfl, row, List.mem_append_right _ hrow, hid, huri⟩
    · obtain rfl : targets = rows := Option.some.inj (ht.symm.trans hrows)
      refine ⟨_, rfl, row, List.mem_append_left _ (List.mem_filter.2 ⟨hrow, ?_⟩), hid, huri⟩
      rw [← hid] at hne
      exact decide_eq_true hne

theorem keyed_written (h : db.Keyed) (hm : db.messages = some messages)
    (ht : db.targets = some targets) (hdistinct : (distinct.map (·.uri)).Nodup) :
    (written m distinct messages targets db).Keyed where
  messages := by
    intro messages' hm'
    cases hm'
    have hnodup := h.messages messages hm
    rcases map_id_upsert (.ofMessage m) messages with ⟨hids, -⟩ | ⟨hids, hnew⟩
    · rwa [hids]
    · rw [hids]
      exact List.Nodup.append hnodup (List.nodup_singleton _)
        (List.disjoint_singleton.2 hnew)
  targets := by
    intro targets' ht'
    cases ht'
    rw [List.map_append]
    refine List.Nodup.append ((h.targets targets ht).sublist (List.filter_sublist.map _)) ?_ ?_
    · exact keys_targetRows_nodup m.id 0 hdistinct
    · -- the rows that stay are of other messages than the new ones
      rintro ⟨id, uri⟩ hold hnew
      obtain ⟨row, hrow, hkey⟩ := List.mem_map.1 hold
      obtain ⟨row', hrow', hkey'⟩ := List.mem_map.1 hnew
      have hid : row.messageId = m.id := (congrArg Prod.fst (hkey.trans hkey'.symm)).trans
        (messageId_of_mem_targetRows hrow')
      exact absurd hid (of_decide_eq_true (List.mem_filter.1 hrow).2)

end Write

/-! ### After a removal -/

section Remove

variable {id uri : String} {messages : List MessageRow} {targets : List TargetRow} {db : Database}

theorem wants_removed {id' uri' : String} (ht : db.targets = some targets) :
    (removed id uri messages targets db).Wants id' uri' ↔
      db.Wants id' uri' ∧ ¬ (id' = id ∧ uri' = uri) := by
  constructor
  · rintro ⟨rows, hrows, row, hrow, hid, huri⟩
    cases hrows
    obtain ⟨hmem, hne⟩ := List.mem_filter.1 hrow
    refine ⟨⟨targets, ht, row, hmem, hid, huri⟩, fun ⟨hid', huri'⟩ ↦ ?_⟩
    exact of_decide_eq_true hne ⟨hid.trans hid', by rw [huri, huri']⟩
  · rintro ⟨⟨rows, hrows, row, hrow, hid, huri⟩, hne⟩
    obtain rfl : targets = rows := Option.some.inj (ht.symm.trans hrows)
    refine ⟨_, rfl, row, List.mem_filter.2 ⟨hrow, decide_eq_true fun ⟨hid', huri'⟩ ↦ ?_⟩, hid, huri⟩
    exact hne ⟨hid.symm.trans hid', Cell.text.inj (huri.symm.trans huri')⟩

theorem stores_of_removed {row : MessageRow} (hm : db.messages = some messages)
    (h : (removed id uri messages targets db).Stores row) : db.Stores row := by
  obtain ⟨rows, hrows, hrow⟩ := h
  cases hrows
  refine ⟨messages, hm, ?_⟩
  rw [withoutFinished] at hrow
  split at hrow
  · exact hrow
  · exact (List.mem_filter.1 hrow).1

/-- A removal keeps the row of a message that still wants a peer. -/
theorem stores_removed {m : Message} {uri' : String} (hm : db.messages = some messages)
    (h : db.Stores (.ofMessage m))
    (hwants : (removed id uri messages targets db).Wants m.id uri') :
    (removed id uri messages targets db).Stores (.ofMessage m) := by
  obtain ⟨rows, hrows, hrow⟩ := h
  obtain rfl : messages = rows := Option.some.inj (hm.symm.trans hrows)
  obtain ⟨left, hleft, row, hmem, hid, -⟩ := hwants
  cases hleft
  refine ⟨_, rfl, ?_⟩
  rw [withoutFinished]
  split
  · exact hrow
  · rename_i hnone
    refine List.mem_filter.2 ⟨hrow, decide_eq_true fun heq ↦ hnone ?_⟩
    refine List.any_eq_true.2 ⟨row, hmem, decide_eq_true ?_⟩
    exact hid.trans (Cell.text.inj heq)

theorem keyed_removed (h : db.Keyed) (hm : db.messages = some messages)
    (ht : db.targets = some targets) : (removed id uri messages targets db).Keyed where
  messages := by
    intro messages' hm'
    cases hm'
    rw [withoutFinished]
    split
    · exact h.messages messages hm
    · exact (h.messages messages hm).sublist (List.filter_sublist.map _)
  targets := by
    intro targets' ht'
    cases ht'
    exact (h.targets targets ht).sublist (List.filter_sublist.map _)

end Remove

/-! ### After a purge -/

section Purge

variable {db : Database} {ids : List String}

theorem wants_purge {id uri : String} : (purge db ids).Wants id uri ↔ db.Wants id uri :=
  Iff.rfl

theorem stores_purge {row : MessageRow} :
    (purge db ids).Stores row ↔ db.Stores row ∧ ∀ id ∈ ids, row.id ≠ .text id := by
  unfold Stores purge
  constructor
  · rintro ⟨messages', hm', hrow⟩
    obtain ⟨messages, hm, rfl⟩ := Option.map_eq_some_iff.1 hm'
    obtain ⟨hmem, hall⟩ := List.mem_filter.1 hrow
    refine ⟨⟨messages, hm, hmem⟩, fun id hid heq ↦ ?_⟩
    exact of_decide_eq_true (List.all_eq_true.1 hall id hid) heq.symm
  · rintro ⟨⟨messages, hm, hrow⟩, hne⟩
    refine ⟨_, by rw [hm]; rfl, List.mem_filter.2 ⟨hrow, List.all_eq_true.2 fun id hid ↦ ?_⟩⟩
    exact decide_eq_true fun heq ↦ hne id hid heq.symm

theorem keyed_purge (h : db.Keyed) : (purge db ids).Keyed where
  messages := by
    intro messages' hm'
    obtain ⟨messages, hm, rfl⟩ := Option.map_eq_some_iff.1 hm'
    exact (h.messages messages hm).sublist (List.filter_sublist.map _)
  targets := h.targets

end Purge

/-! ### After an operation -/

section Operations

variable {db db' : Database} {m : Message} {l : List Instance} {record : Record} {id uri : String}

theorem stores_of_write {row : MessageRow} (h : write db m l = (.ok record, db'))
    (hrow : db'.Stores row) : row = .ofMessage m ∨ db.Stores row := by
  obtain ⟨-, messages, targets, hm, -, rfl⟩ := write_eq_ok h
  exact stores_of_written hm hrow

/-- Under its id a message that is written has one row. -/
theorem eq_of_stores_write {row : MessageRow} (h : write db m l = (.ok record, db'))
    (hrow : db'.Stores row) (hid : row.id = .text m.id) : row = .ofMessage m := by
  obtain ⟨-, messages, targets, -, -, rfl⟩ := write_eq_ok h
  obtain ⟨messages', hm', hmem⟩ := hrow
  cases hm'
  exact eq_of_mem_upsert hmem hid

/-- Under its id a message that is written wants its own peers and nobody else. -/
theorem wants_write (h : write db m l = (.ok record, db')) : db'.Wants id uri ↔
    (id = m.id ∧ ∃ i ∈ l, i.uri = uri) ∨ (id ≠ m.id ∧ db.Wants id uri) := by
  obtain ⟨-, messages, targets, -, ht, rfl⟩ := write_eq_ok h
  rw [wants_written ht, exists_mem_distinctByUri_iff]

theorem wants_of_write (h : write db m l = (.ok record, db')) (hwants : db'.Wants id uri) :
    id = m.id ∨ db.Wants id uri :=
  ((wants_write h).1 hwants).imp And.left And.right

theorem keyed_write (h : write db m l = (.ok record, db')) (keyed : db.Keyed) : db'.Keyed := by
  obtain ⟨-, messages, targets, hm, ht, rfl⟩ := write_eq_ok h
  exact keyed_written keyed hm ht (uris_distinctByUri_nodup l)

theorem stores_of_remove {row : MessageRow} (h : remove db id uri = (.ok (), db'))
    (hrow : db'.Stores row) : db.Stores row := by
  obtain ⟨messages, targets, hm, -, rfl⟩ := remove_eq_ok h
  exact stores_of_removed hm hrow

theorem wants_remove {id' uri' : String} (h : remove db id uri = (.ok (), db')) :
    db'.Wants id' uri' ↔ db.Wants id' uri' ∧ ¬ (id' = id ∧ uri' = uri) := by
  obtain ⟨messages, targets, -, ht, rfl⟩ := remove_eq_ok h
  exact wants_removed ht

theorem keyed_remove (h : remove db id uri = (.ok (), db')) (keyed : db.Keyed) : db'.Keyed := by
  obtain ⟨messages, targets, hm, ht, rfl⟩ := remove_eq_ok h
  exact keyed_removed keyed hm ht

end Operations

end PeerRelay.Store
